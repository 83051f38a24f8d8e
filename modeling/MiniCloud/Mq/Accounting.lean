import MiniCloud.Library.Tables
import MiniCloud.Mq.Broker

/-!
# The counters, the queues and the cursors

The counters are bumped after what they count, in sections of their own.  The
equations between them and the queues therefore hold with the tasks that are between
the two, and every step keeps them.
-/

namespace MiniCloud.Mq

open MiniCloud.Library (total total_insert total_insert_new countP_set_toNat execute)

/-! ## The balance of a delivery step -/

namespace Stage

/-- The message is back in the queue, and `Retried` is not counted yet. -/
def appended : Stage → Bool
  | .requeued _ => true
  | _ => false

/-- `Delivered` is counted, and the outcome is not. -/
def outstanding : Stage → Bool
  | .handling _ _ | .succeeded _ | .failed _ | .clearing _ _ | .writing _ _ | .requeueing _
  | .requeued _ | .burying _ | .buried _ => true
  | _ => false

/-- The position is taken, and the handler is not called yet. -/
def takes (pos : Nat) : Stage → Bool
  | .taken at_ _ => at_ = pos
  | _ => false

/-- The handler runs. -/
def inHandler : Stage → Bool
  | .handling _ _ => true
  | _ => false

/-- Between two steps that belong together: neither waiting nor in the handler. -/
def midStep : Stage → Bool
  | .idle | .handling _ _ => false
  | _ => true

end Stage

def Event.callsAt (pos : Nat) : Event → Bool
  | .called at_ _ _ => at_ = pos
  | _ => false

section Lane

variable {maxRetries : Int64} {err : Bool} {lane lane' : Lane} {stage next : Stage}

/-- A retry is counted after the message is back in the queue. -/
theorem Delivers.retried (delivers : Delivers maxRetries lane err stage lane' next) (st : Stats) :
    (st.count stage).retried + next.appended.toNat + lane.queue.length =
      st.retried + stage.appended.toNat + lane'.queue.length := by
  cases delivers with
  | requeue mv =>
      simp only [Stats.count, Stage.appended, Queue.requeue, List.length_append,
        List.length_singleton, Bool.toNat_true, Bool.toNat_false]
      omega
  | countRetried mv => exact Nat.add_right_comm _ _ _
  | _ => rfl

/-- An outcome is counted after the delivery. -/
theorem Delivers.delivered (delivers : Delivers maxRetries lane err stage lane' next)
    (st : Stats) :
    (st.count stage).delivered + (st.acked + st.retried + st.dead) +
        stage.outstanding.toNat =
      st.delivered + ((st.count stage).acked + (st.count stage).retried + (st.count stage).dead) +
        next.outstanding.toNat := by
  cases delivers with
  | _ => simp only [Stats.count, Stage.outstanding, Bool.toNat_true, Bool.toNat_false] <;> omega

theorem Delivers.cursor_le (delivers : Delivers maxRetries lane err stage lane' next)
    (inside : lane.cursor ≤ lane.queue.length) : lane'.cursor ≤ lane'.queue.length := by
  cases delivers with
  | take found => exact (List.getElem?_eq_some_iff.mp found).1
  | requeue mv =>
      simp only [Queue.requeue, List.length_append]
      omega
  | _ => exact inside

theorem Delivers.queue (delivers : Delivers maxRetries lane err stage lane' next) :
    lane.queue <+: lane'.queue := by
  cases delivers with
  | requeue mv => exact List.prefix_append _ _
  | _ => exact List.prefix_rfl

/-- A position is passed when it is taken, and called once after that. -/
theorem Delivers.calls (delivers : Delivers maxRetries lane err stage lane' next) (pos : Nat) :
    (lane.events err stage).countP (Event.callsAt pos) + (next.takes pos).toNat +
        (decide (pos < lane.cursor)).toNat =
      (stage.takes pos).toNat + (decide (pos < lane'.cursor)).toNat := by
  cases delivers with
  | take found =>
      have passes : pos < lane.cursor + 1 ↔ lane.cursor = pos ∨ pos < lane.cursor := by omega
      by_cases here : lane.cursor = pos
      · simp [Lane.events, Stage.takes, here]
      · simp [Lane.events, Stage.takes, here, passes]
  | call at_ mv =>
      by_cases here : at_ = pos
      · simp [Lane.events, Stage.takes, Event.callsAt, here]
      · simp [Lane.events, Stage.takes, Event.callsAt, here]
  | _ => simp [Lane.events, Stage.takes, Event.callsAt]

end Lane

/-! ## The counters -/

namespace Task

/-- A message is in the queue, and its counter is not bumped yet. -/
def appended : Task → Bool
  | .countPublished => true
  | .subscriber _ _ stage _ => stage.appended
  | _ => false

def outstanding : Task → Bool
  | .subscriber _ _ stage _ => stage.outstanding
  | _ => false

end Task

/-- The total length of all topic queues. -/
def Broker.queued (b : Broker) : Nat := total (fun tp : Topic => tp.queue.length) b.t

/-- The counters agree with the queues and with each other, up to the tasks that are
between a change and its counter. -/
structure Counted (w : World) : Prop where
  queued : w.broker.st.published + w.broker.st.retried + w.tasks.countP Task.appended =
    w.broker.queued
  delivered : w.broker.st.delivered =
    w.broker.st.acked + w.broker.st.retried + w.broker.st.dead + w.tasks.countP Task.outstanding

theorem counted_start (maxRetries : Int64) : Counted (World.start maxRetries) := ⟨rfl, rfl⟩

/-- A task goes on, and the counters change with it. -/
theorem Counted.move {w : World} (counted : Counted w) {i : Nat} {b : Broker} {old task : Task}
    (current : w.tasks[i]? = some old)
    (queued : b.st.published + b.st.retried + task.appended.toNat +
        w.broker.queued =
      w.broker.st.published + w.broker.st.retried + old.appended.toNat + b.queued)
    (delivered : b.st.delivered + (w.broker.st.acked + w.broker.st.retried + w.broker.st.dead) +
        old.outstanding.toNat =
      w.broker.st.delivered + (b.st.acked + b.st.retried + b.st.dead) +
        task.outstanding.toNat) : Counted (w.move i b task) := by
  have appends : (w.tasks.set i task).countP Task.appended + _ = _ :=
    countP_set_toNat Task.appended current
  have outstands : (w.tasks.set i task).countP Task.outstanding + _ = _ :=
    countP_set_toNat Task.outstanding current
  have first := counted.queued
  have second := counted.delivered
  constructor
  · simp only [World.move]
    omega
  · simp only [World.move]
    omega

theorem Counted.spawn {w : World} (counted : Counted w) {task : Task}
    (appended : task.appended = false) (outstanding : task.outstanding = false) :
    Counted (w.spawn task) := by
  constructor
  · rw [World.spawn, List.countP_append, List.countP_singleton, appended]
    exact counted.queued
  · rw [World.spawn, List.countP_append, List.countP_singleton, outstanding]
    exact counted.delivered

theorem queued_getOrCreateTopic (b : Broker) (name : String) :
    (b.getOrCreateTopic name).queued = b.queued := by
  unfold Broker.getOrCreateTopic
  cases found : b.t.lookup name with
  | some tp => rfl
  | none =>
      have added : (b.putTopic name Topic.empty).queued = _ := total_insert_new found
      exact added.trans (Nat.zero_add _)

theorem queued_insert {b : Broker} {name : String} {tp : Topic} (found : b.t.lookup name = some tp)
    (changed : Topic) :
    total (fun tp : Topic => tp.queue.length) (b.t.insert name changed) + tp.queue.length =
      b.queued + changed.queue.length :=
  total_insert found

theorem st_getOrCreateTopic (b : Broker) (name : String) :
    (b.getOrCreateTopic name).st = b.st := by
  unfold Broker.getOrCreateTopic
  cases b.t.lookup name with
  | some tp => rfl
  | none => rfl

theorem counted_steps {w next : World} {act : Act} (counted : Counted w)
    (steps : Steps w act next) : Counted next := by
  cases steps with
  | publish topic key value headers => exact counted.spawn rfl rfl
  | subscribe topic group => exact counted.spawn rfl rfl
  | dlq topic => exact counted.spawn rfl rfl
  | receive full => exact ⟨counted.queued, counted.delivered⟩
  | @create i err name call current unlocked =>
      have same := queued_getOrCreateTopic w.broker name
      have sameStats := st_getOrCreateTopic w.broker name
      cases call with
      | publish key value headers =>
          exact counted.move current (by rw [same, sameStats]; rfl) (by rw [sameStats]; rfl)
      | subscribe group =>
          exact counted.move current (by rw [same, sameStats]; rfl) (by rw [sameStats]; rfl)
  | @append i err name key value headers tp current found =>
      have changed := queued_insert found (tp.append name key value headers)
      have longer : (tp.append name key value headers).queue.length = tp.queue.length + 1 :=
        List.length_append
      refine counted.move current ?_ rfl
      simp only [Broker.putTopic, Broker.queued, Task.appended, Bool.toNat_true,
        Bool.toNat_false] at changed ⊢
      omega
  | @countPublished i err current =>
      refine counted.move current ?_ rfl
      simp only [Broker.bump, Stats.countPublished, Broker.queued, Task.appended, Bool.toNat_true,
        Bool.toNat_false]
      omega
  | @enroll i err name group tp current found =>
      have changed := queued_insert found (tp.enroll group)
      rw [Topic.queue_enroll] at changed
      have moved : Counted (w.move i (w.broker.putTopic name (tp.enroll group)) .done) := by
        refine counted.move current ?_ rfl
        simp only [Broker.putTopic, Broker.queued, Task.appended] at changed ⊢
        omega
      exact moved.spawn rfl rfl
  | @deliver i err name group stage next ch tp lane current found delivers =>
      have changed := queued_insert found (tp.putLane group lane stage)
      have retried := delivers.retried w.broker.st
      have counts := delivers.delivered w.broker.st
      have samePublished : (w.broker.st.count stage).published = w.broker.st.published := by
        cases stage with
        | _ => rfl
      have moved : Counted (w.move i (w.broker.putLane name group tp lane stage ch)
          (.subscriber name group next (w.channelAfter name stage ch))) := by
        refine counted.move current ?_ counts
        simp only [Broker.putLane, Broker.queued, Task.appended, Topic.putLane, Topic.lane]
          at changed retried ⊢
        omega
      exact ⟨moved.queued, moved.delivered⟩
  | panic current found panicked => exact ⟨counted.queued, counted.delivered⟩
  | @readChannel i c err name current found =>
      have moved : Counted (w.move i w.broker .done) := counted.move current rfl rfl
      exact ⟨moved.queued, moved.delivered⟩
  | missChannel current missing => exact counted.move current rfl rfl
  | @makeChannel i err name current =>
      have moved : Counted (w.move i (w.broker.makeChannel name) .done) :=
        counted.move current rfl rfl
      exact ⟨moved.queued, moved.delivered⟩

/-! ## The positions -/

/-- A subscriber of the group has taken the position and not called the handler. -/
def Task.takes (name group : String) (pos : Nat) : Task → Bool
  | .subscriber ofTopic ofGroup stage _ =>
      decide (ofTopic = name) && decide (ofGroup = group) && stage.takes pos
  | _ => false

/-- How often a position of a topic was delivered to a group. -/
def World.calls (w : World) (name group : String) (pos : Nat) : Nat :=
  w.events.countP fun event =>
    decide (event.1 = name) && decide (event.2.1 = group) && event.2.2.callsAt pos

/-- Each position below the cursor is delivered once, or taken by one subscriber who is
about to call the handler, with the message that stands there. -/
structure Passed (name group : String) (w : World) : Prop where
  once : ∀ pos, w.calls name group pos + w.tasks.countP (Task.takes name group pos) =
    (decide (pos < (w.broker.topic name).cursor group)).toNat
  within : (w.broker.topic name).cursor group ≤ (w.broker.topic name).queue.length
  called : ∀ pos mv m, (name, group, .called pos mv m) ∈ w.events →
    (w.broker.topic name).queue[pos]? = some mv
  taken : ∀ pos mv ch, .subscriber name group (.taken pos mv) ch ∈ w.tasks →
    (w.broker.topic name).queue[pos]? = some mv

theorem getElem?_of_grows {queue longer : List Nat} {pos mv : Nat} (grows : queue <+: longer)
    (found : queue[pos]? = some mv) : longer[pos]? = some mv := by
  obtain ⟨more, rfl⟩ := grows
  obtain ⟨inside, _⟩ := List.getElem?_eq_some_iff.mp found
  rw [List.getElem?_append_left inside, found]

/-- The task has not taken a position for the group. -/
def Task.Quiet (name group : String) (task : Task) : Prop :=
  ∀ pos, task.takes name group pos = false

theorem quiet_of_other {name group ofTopic ofGroup : String} (stage : Stage) (ch : Option Nat)
    (other : ¬ (ofTopic = name ∧ ofGroup = group)) :
    (Task.subscriber ofTopic ofGroup stage ch).Quiet name group := by
  intro pos
  rcases not_and_or.mp other with topic | groups
  · simp [Task.takes, topic]
  · simp [Task.takes, groups]

section Passed

variable {name group : String} {w next : World}

/-- The group has no part in a step. -/
theorem Passed.frame (passed : Passed name group w)
    (cursor : (next.broker.topic name).cursor group = (w.broker.topic name).cursor group)
    (grows : (w.broker.topic name).queue <+: (next.broker.topic name).queue)
    (events : ∀ event, (name, group, event) ∈ next.events → (name, group, event) ∈ w.events)
    (calls : ∀ pos, next.calls name group pos = w.calls name group pos)
    (tasks : ∀ task ∈ next.tasks, task ∈ w.tasks ∨ task.Quiet name group)
    (takes : ∀ pos, next.tasks.countP (Task.takes name group pos) =
      w.tasks.countP (Task.takes name group pos)) : Passed name group next where
  once := by
    intro pos
    rw [calls, takes, cursor]
    exact passed.once pos
  within := by
    rw [cursor]
    exact Nat.le_trans passed.within grows.length_le
  called := by
    intro pos mv m member
    exact getElem?_of_grows grows (passed.called pos mv m (events _ member))
  taken := by
    intro pos mv ch member
    rcases tasks _ member with before | quiet
    · exact getElem?_of_grows grows (passed.taken pos mv ch before)
    · have takes := quiet pos
      simp [Task.takes, Stage.takes] at takes

theorem Passed.spawn (passed : Passed name group w) {task : Task}
    (quiet : task.Quiet name group) : Passed name group (w.spawn task) := by
  refine passed.frame rfl List.prefix_rfl (fun _ member => member) (fun _ => rfl) ?_ ?_
  · exact Library.each_concat (fun _ member => Or.inl member) (Or.inr quiet)
  · intro pos
    rw [World.spawn, List.countP_append, List.countP_singleton, quiet pos]
    rfl

theorem countP_set_quiet {i : Nat} {old task : Task} (current : w.tasks[i]? = some old)
    (quietOld : old.Quiet name group) (quiet : task.Quiet name group) (pos : Nat) :
    (w.tasks.set i task).countP (Task.takes name group pos) =
      w.tasks.countP (Task.takes name group pos) := by
  have balance : (w.tasks.set i task).countP (Task.takes name group pos) + _ = _ :=
    countP_set_toNat _ current
  rw [quietOld pos, quiet pos] at balance
  exact balance

/-- A task of another kind, or of another group, goes on. -/
theorem Passed.move (passed : Passed name group w) {i : Nat} {b : Broker} {old task : Task}
    (current : w.tasks[i]? = some old) (quietOld : old.Quiet name group)
    (quiet : task.Quiet name group)
    (cursor : (b.topic name).cursor group = (w.broker.topic name).cursor group)
    (grows : (w.broker.topic name).queue <+: (b.topic name).queue) :
    Passed name group (w.move i b task) := by
  refine passed.frame cursor grows (fun _ member => member) (fun _ => rfl) ?_ ?_
  · exact Library.each_set (fun _ member => Or.inl member) (Or.inr quiet)
  · exact countP_set_quiet current quietOld quiet

theorem Passed.hand (passed : Passed name group w) (topic : String) (c : Nat) :
    Passed name group (w.hand topic c) :=
  passed.frame rfl List.prefix_rfl (fun _ member => member) (fun _ => rfl)
    (fun _ member => Or.inl member) (fun _ => rfl)

/-- What a change of one topic means for the group. -/
theorem view_insert (name group : String) {b b' : Broker} {ofTopic : String} {tp tp' : Topic}
    (found : b.t.lookup ofTopic = some tp) (changed : b'.t = b.t.insert ofTopic tp')
    (cursor : ofTopic = name → tp'.cursor group = tp.cursor group)
    (grows : tp.queue <+: tp'.queue) :
    (b'.topic name).cursor group = (b.topic name).cursor group ∧
      (b.topic name).queue <+: (b'.topic name).queue := by
  by_cases same : ofTopic = name
  · subst same
    rw [Broker.topic_insert_self changed, Broker.topic_of_lookup found]
    exact ⟨cursor rfl, grows⟩
  · rw [Broker.topic_insert_ne changed (Ne.symm same)]
    exact ⟨rfl, List.prefix_rfl⟩

section Deliver

variable {i : Nat} {err : Bool} {ofTopic ofGroup : String} {stage after : Stage} {ch : Option Nat}
  {tp : Topic} {lane : Lane}

theorem calls_delivered (pos : Nat) :
    (w.delivered i err ofTopic ofGroup stage ch tp lane after).calls name group pos =
      w.calls name group pos +
        if ofTopic = name ∧ ofGroup = group then
          ((tp.lane ofGroup).events err stage).countP (Event.callsAt pos)
        else 0 := by
  unfold World.calls World.delivered
  rw [List.countP_append, List.countP_map]
  by_cases mine : ofTopic = name ∧ ofGroup = group
  · rw [if_pos mine]
    obtain ⟨rfl, rfl⟩ := mine
    simp [Function.comp_def]
  · rw [if_neg mine]
    rcases not_and_or.mp mine with topic | groups
    · simp [Function.comp_def, topic]
    · simp [Function.comp_def, groups]

/-- A subscriber of another group takes a step. -/
theorem Passed.deliver_other (passed : Passed name group w)
    (current : w.tasks[i]? = some (.subscriber ofTopic ofGroup stage ch))
    (found : w.broker.t.lookup ofTopic = some tp)
    (delivers : Delivers w.broker.maxRetries (tp.lane ofGroup) err stage lane after)
    (other : ¬ (ofTopic = name ∧ ofGroup = group)) :
    Passed name group (w.delivered i err ofTopic ofGroup stage ch tp lane after) := by
  have changed : (w.broker.putLane ofTopic ofGroup tp lane stage ch).t =
      w.broker.t.insert ofTopic (tp.putLane ofGroup lane stage) := rfl
  obtain ⟨cursor, grows⟩ := view_insert name group found changed
    (fun same => Topic.cursor_putLane_ne tp lane stage fun sameGroup => other ⟨same, sameGroup.symm⟩)
    delivers.queue
  refine passed.frame cursor grows ?_ ?_ ?_ ?_
  · intro event member
    rcases List.mem_append.mp member with before | added
    · exact before
    · obtain ⟨_, _, isNew⟩ := List.mem_map.mp added
      cases isNew
      exact absurd ⟨rfl, rfl⟩ other
  · intro pos
    rw [calls_delivered, if_neg other]
    rfl
  · exact Library.each_set (fun _ member => Or.inl member) (Or.inr (quiet_of_other _ _ other))
  · exact countP_set_quiet current (quiet_of_other _ _ other) (quiet_of_other _ _ other)

/-- A subscriber of the group takes a step. -/
theorem Passed.deliver_self (passed : Passed name group w)
    (current : w.tasks[i]? = some (.subscriber name group stage ch))
    (found : w.broker.t.lookup name = some tp)
    (delivers : Delivers w.broker.maxRetries (tp.lane group) err stage lane after) :
    Passed name group (w.delivered i err name group stage ch tp lane after) := by
  have isTopic := Broker.topic_of_lookup found
  have newTopic : (w.delivered i err name group stage ch tp lane after).broker.topic name =
      tp.putLane group lane stage := Broker.topic_insert_self rfl
  have newCursor := Topic.cursor_putLane_self tp group lane stage
  constructor
  · intro pos
    have before := passed.once pos
    have balance : (w.tasks.set i (.subscriber name group after
        (w.channelAfter name stage ch))).countP (Task.takes name group pos) + _ = _ :=
      countP_set_toNat _ current
    have passes : ((tp.lane group).events err stage).countP (Event.callsAt pos) +
        (after.takes pos).toNat + (decide (pos < tp.cursor group)).toNat =
      (stage.takes pos).toNat + (decide (pos < lane.cursor)).toNat := delivers.calls pos
    rw [calls_delivered, if_pos ⟨rfl, rfl⟩, newTopic, newCursor]
    rw [isTopic] at before
    simp only [Task.takes, decide_true, Bool.true_and] at balance
    simp only [World.delivered]
    omega
  · rw [newTopic, newCursor]
    refine delivers.cursor_le ?_
    have inside := passed.within
    rw [isTopic] at inside
    exact inside
  · intro pos mv m member
    rw [newTopic]
    refine getElem?_of_grows delivers.queue ?_
    rcases List.mem_append.mp member with before | added
    · have stands := passed.called pos mv m before
      rw [isTopic] at stands
      exact stands
    · obtain ⟨event, isEvent, isNew⟩ := List.mem_map.mp added
      cases isNew
      have stands := passed.taken pos mv ch (List.mem_of_getElem? (taken_of_called isEvent ▸ current))
      rw [isTopic] at stands
      exact stands
  · intro pos mv ch' member
    rw [newTopic]
    rcases List.mem_or_eq_of_mem_set member with before | isNew
    · have stands := passed.taken pos mv ch' before
      rw [isTopic] at stands
      exact getElem?_of_grows delivers.queue stands
    · cases isNew
      cases delivers with
      | take stands => exact stands

end Deliver

theorem passed_steps {act : Act} (passed : Passed name group w) (steps : Steps w act next) :
    Passed name group next := by
  cases steps with
  | publish topic key value headers => exact passed.spawn fun _ => rfl
  | subscribe topic ofGroup => exact passed.spawn fun _ => rfl
  | dlq topic => exact passed.spawn fun _ => rfl
  | receive full =>
      exact passed.frame rfl List.prefix_rfl (fun _ member => member) (fun _ => rfl)
        (fun _ member => Or.inl member) (fun _ => rfl)
  | @create i err ofTopic call current unlocked =>
      have quiet : (call.next ofTopic).Quiet name group := by
        cases call with
        | publish key value headers => exact fun _ => rfl
        | subscribe ofGroup => exact fun _ => rfl
      have same := Broker.topic_getOrCreateTopic w.broker ofTopic name
      exact passed.move current (fun _ => rfl) quiet (by rw [same]) (same ▸ List.prefix_rfl)
  | @append i err ofTopic key value headers tp current found =>
      have changed : (w.broker.putTopic ofTopic (tp.append ofTopic key value headers)).t =
          w.broker.t.insert ofTopic (tp.append ofTopic key value headers) := rfl
      obtain ⟨cursor, grows⟩ := view_insert name group found changed (fun _ => rfl)
        (List.prefix_append _ _)
      exact passed.move current (fun _ => rfl) (fun _ => rfl) cursor grows
  | countPublished current =>
      exact passed.move current (fun _ => rfl) (fun _ => rfl) rfl List.prefix_rfl
  | @enroll i err ofTopic ofGroup tp current found =>
      have sameQueue := congrArg Queue.queue (Topic.queue_enroll tp ofGroup)
      have changed : (w.broker.putTopic ofTopic (tp.enroll ofGroup)).t =
          w.broker.t.insert ofTopic (tp.enroll ofGroup) := rfl
      obtain ⟨cursor, grows⟩ := view_insert name group found changed
        (fun _ => Topic.cursor_enroll tp ofGroup group) (sameQueue ▸ List.prefix_rfl)
      refine (passed.move current (fun _ => rfl) (fun _ => rfl) cursor grows).spawn ?_
      intro pos
      simp [Task.takes, Stage.takes]
  | @deliver i err ofTopic ofGroup stage after ch tp lane current found delivers =>
      by_cases mine : ofTopic = name ∧ ofGroup = group
      · obtain ⟨rfl, rfl⟩ := mine
        exact passed.deliver_self current found delivers
      · exact passed.deliver_other current found delivers mine
  | panic current found panicked =>
      exact passed.frame rfl List.prefix_rfl (fun _ member => member) (fun _ => rfl)
        (fun _ member => Or.inl member) (fun _ => rfl)
  | @readChannel i c err ofTopic current found =>
      have moved : Passed name group (w.move i w.broker .done) :=
        passed.move current (fun _ => rfl) (fun _ => rfl) rfl List.prefix_rfl
      exact moved.hand ofTopic c
  | missChannel current missing =>
      exact passed.move current (fun _ => rfl) (fun _ => rfl) rfl List.prefix_rfl
  | @makeChannel i err ofTopic current =>
      have moved : Passed name group (w.move i (w.broker.makeChannel ofTopic) .done) :=
        passed.move current (fun _ => rfl) (fun _ => rfl) rfl List.prefix_rfl
      exact moved.hand ofTopic _

theorem passed_start (maxRetries : Int64) : Passed name group (World.start maxRetries) where
  once := fun _ => rfl
  within := Nat.le_refl _
  called := fun _ _ _ member => absurd member List.not_mem_nil
  taken := fun _ _ _ member => absurd member List.not_mem_nil

end Passed

/-! ## Accounting -/

/-- A `Publish` call is going on, or a delivery is neither waiting nor in its handler. -/
def Task.midStep : Task → Bool
  | .create _ (.publish _ _ _) | .append _ _ _ _ | .countPublished => true
  | .subscriber _ _ stage _ => stage.midStep
  | _ => false

/-- The handler of a delivery runs. -/
def Task.inHandler : Task → Bool
  | .subscriber _ _ stage _ => stage.inHandler
  | _ => false

/-- No `Publish` or delivery is mid-step. -/
def Settled (w : World) : Prop := ∀ task ∈ w.tasks, task.midStep = false

instance (w : World) : Decidable (Settled w) :=
  inferInstanceAs (Decidable (∀ task ∈ w.tasks, task.midStep = false))

theorem appended_of_settled {w : World} (settled : Settled w) :
    w.tasks.countP Task.appended = 0 := by
  refine List.countP_eq_zero.mpr ?_
  intro task member appended
  have still := settled task member
  cases task with
  | countPublished => cases still
  | subscriber name group stage ch =>
      cases stage with
      | requeued mv => cases still
      | _ => cases appended
  | _ => cases appended

theorem outstanding_of_settled {w : World} (settled : Settled w) :
    w.tasks.countP Task.outstanding = w.tasks.countP Task.inHandler := by
  refine List.countP_congr ?_
  intro task member
  have still := settled task member
  cases task with
  | subscriber name group stage ch =>
      cases stage with
      | idle => exact Iff.rfl
      | handling pos mv => exact Iff.rfl
      | _ => cases still
  | _ => exact Iff.rfl

theorem takes_of_settled {w : World} (settled : Settled w) (name group : String) (pos : Nat) :
    w.tasks.countP (Task.takes name group pos) = 0 := by
  refine List.countP_eq_zero.mpr ?_
  intro task member takes
  have still := settled task member
  cases task with
  | subscriber ofTopic ofGroup stage ch =>
      cases stage with
      | taken at_ mv => cases still
      | _ => simp [Task.takes, Stage.takes] at takes
  | _ => cases takes

/-- In every run: the counters agree with the queues and with each other, up to the tasks
that are between a change and its counter; no cursor is beyond its queue; and every
position below a cursor is delivered once, with the message that stands there, or
taken by one subscriber that is about to deliver it.  When nothing is mid-step the
exceptions are the handlers in progress. -/
theorem queue_accounting {maxRetries : Int64} {acts : List Act} {w : World}
    (reached : execute World.step (World.start maxRetries) acts = some w) :
    Counted w ∧ (∀ name group, Passed name group w) ∧
      (Settled w →
        w.broker.st.published + w.broker.st.retried = w.broker.queued ∧
        w.broker.st.delivered = w.broker.st.acked + w.broker.st.retried + w.broker.st.dead +
          w.tasks.countP Task.inHandler ∧
        ∀ name group pos, pos < (w.broker.topic name).cursor group →
          w.calls name group pos = 1) := by
  have counted : Counted w := invariant_of_steps Counted
    (fun _ _ _ held steps => counted_steps held steps) (counted_start maxRetries) reached
  have passed (name group : String) : Passed name group w := invariant_of_steps _
    (fun _ _ _ held steps => passed_steps held steps) (passed_start maxRetries) reached
  refine ⟨counted, passed, ?_⟩
  intro settled
  refine ⟨?_, ?_, ?_⟩
  · have queued := counted.queued
    rw [appended_of_settled settled] at queued
    exact queued
  · rw [← outstanding_of_settled settled]
    exact counted.delivered
  · intro name group pos below
    have once := (passed name group).once pos
    rw [takes_of_settled settled, decide_eq_true below] at once
    exact once

/-- A message is published to the topic `t`, a subscriber joins the group `g`, and its
handler fails once. -/
def retryRun : List Act :=
  [.publish "t" "k" [1] ∅, .proceed 0 false, .proceed 0 false, .proceed 0 false,
    .subscribe "t" "g", .proceed 1 false, .proceed 1 false] ++
  List.replicate 8 (.proceed 2 true)

theorem queue_accounting_of_retry :
    ∃ w, execute World.step (World.start 2) retryRun = some w ∧
      w.broker.st = ⟨1, 1, 0, 1, 0⟩ ∧ w.broker.queued = 2 ∧
      w.broker.st.published + w.broker.st.retried = w.broker.queued ∧
      w.calls "t" "g" 0 = 1 := by
  obtain ⟨w, reached, counters, queued, settled, below⟩ :=
    Library.exists_of_execute_test World.step (World.start 2) retryRun
      (fun w => w.broker.st = ⟨1, 1, 0, 1, 0⟩ ∧ w.broker.queued = 2 ∧ Settled w ∧
        0 < (w.broker.topic "t").cursor "g") (by decide +kernel)
  obtain ⟨_, _, whenSettled⟩ := queue_accounting reached
  obtain ⟨total, _, once⟩ := whenSettled settled
  exact ⟨w, reached, counters, queued, total, once "t" "g" 0 below⟩

end MiniCloud.Mq
