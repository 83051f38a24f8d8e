import MiniCloud.Mq.Accounting

/-!
# One consumer group and the others

All groups of a topic share its queue and its messages.  A delivery that is retried
writes both: the message goes back to the end of the queue, where every group finds it
again, with other headers.  As long as no delivery of another group is retried, what a
group sees is what it would see alone on the topic.
-/

namespace MiniCloud.Mq

open MiniCloud.Library (execute Guarded inputs)

/-! ## A group alone on its topic -/

@[ext]
structure Solo where
  maxRetries : Int64
  lane : Lane
  /-- The subscribers of the group, in the order in which they came. -/
  workers : List Stage
  events : List Event

/-- What happens to a group: a message is published, a subscriber joins, or one of the
subscribers takes a step. -/
inductive SoloAct where
  | publish (key : String) (value : Bytes) (headers : Headers)
  | join
  | proceed (i : Nat) (err : Bool)
  deriving DecidableEq

namespace Solo

/-- The lane after `Publish`. -/
def published (s : Solo) (name key : String) (value : Bytes) (headers : Headers) : Solo :=
  { s with lane := ⟨s.lane.append name key value headers, s.lane.cursor⟩ }

/-- A subscriber has taken a step to the stage `next`. -/
def delivered (s : Solo) (i : Nat) (err : Bool) (stage : Stage) (lane : Lane) (next : Stage) :
    Solo :=
  { s with
    lane := lane
    workers := s.workers.set i next
    events := s.events ++ s.lane.events err stage }

def fresh (maxRetries : Int64) : Solo := ⟨maxRetries, ⟨Queue.empty, 0⟩, [], []⟩

/-- A panic ends the run of the broker, so it changes nothing here. -/
def step (name : String) (s : Solo) : SoloAct → Option Solo
  | .publish key value headers => some (s.published name key value headers)
  | .join => some { s with workers := s.workers ++ [.idle] }
  | .proceed i err =>
      (s.workers[i]?).map fun stage =>
        match s.lane.deliver s.maxRetries err stage with
        | none => s
        | some (lane, next) => s.delivered i err stage lane next

/-- The steps, one constructor for each. -/
inductive Steps (name : String) (s : Solo) : SoloAct → Solo → Prop where
  | publish (key : String) (value : Bytes) (headers : Headers) :
      Steps name s (.publish key value headers) (s.published name key value headers)
  | join : Steps name s .join { s with workers := s.workers ++ [.idle] }
  | deliver {i : Nat} {err : Bool} {stage next : Stage} {lane : Lane}
      (current : s.workers[i]? = some stage)
      (delivers : Delivers s.maxRetries s.lane err stage lane next) :
      Steps name s (.proceed i err) (s.delivered i err stage lane next)
  | panic {i : Nat} {err : Bool} {stage : Stage} (current : s.workers[i]? = some stage)
      (panicked : s.lane.deliver s.maxRetries err stage = none) : Steps name s (.proceed i err) s

theorem steps_of_step {name : String} {s next : Solo} {act : SoloAct}
    (stepped : s.step name act = some next) : Steps name s act next := by
  cases act with
  | publish key value headers =>
      cases stepped
      exact .publish key value headers
  | join =>
      cases stepped
      exact .join
  | proceed i err =>
      obtain ⟨stage, current, rfl⟩ := Option.map_eq_some_iff.mp stepped
      cases delivered : s.lane.deliver s.maxRetries err stage with
      | none => exact .panic current delivered
      | some result => exact .deliver current (delivers_of_deliver delivered)

end Solo

/-! ## What a group sees of the broker -/

section View

variable (name group : String)

/-- The stage of a subscriber of the group. -/
def Task.worker : Task → Option Stage
  | .subscriber ofTopic ofGroup stage _ =>
      if ofTopic = name ∧ ofGroup = group then some stage else none
  | _ => none

/-- An event of the group. -/
def eventOf (event : String × String × Event) : Option Event :=
  if event.1 = name ∧ event.2.1 = group then some event.2.2 else none

/-- The deliveries to the group, with their outcomes. -/
def World.view (w : World) : List Event := w.events.filterMap (eventOf name group)

def World.solo (w : World) : Solo where
  maxRetries := w.broker.maxRetries
  lane := (w.broker.topic name).lane group
  workers := w.tasks.filterMap (Task.worker name group)
  events := w.view name group

/-- What a step of the broker is for the group. -/
def World.input (w : World) : Act → Option SoloAct
  | .proceed i err =>
      match w.tasks[i]? with
      | some (.append ofTopic key value headers) =>
          if ofTopic = name then some (.publish key value headers) else none
      | some (.enroll ofTopic ofGroup) =>
          if ofTopic = name ∧ ofGroup = group then some .join else none
      | some (.subscriber ofTopic ofGroup _ _) =>
          if ofTopic = name ∧ ofGroup = group then
            some (.proceed (Library.rank (Task.worker name group) w.tasks i) err)
          else none
      | _ => none
  | _ => none

/-- A delivery that is retried writes the headers and the queue. -/
def Stage.rewrites : Stage → Bool
  | .clearing _ _ | .writing _ _ | .requeueing _ => true
  | _ => false

/-- The task is a delivery that another group of the topic is about to retry. -/
def Task.disturbs : Task → Bool
  | .subscriber ofTopic ofGroup stage _ =>
      decide (ofTopic = name) && decide (ofGroup ≠ group) && stage.rewrites
  | _ => false

/-- The step is no part of a retry by another group of the topic. -/
def Spares (w : World) : Act → Prop
  | .proceed i _ => (w.tasks[i]?).all (fun task => !task.disturbs name group) = true
  | _ => True

instance (w : World) (act : Act) : Decidable (Spares name group w act) :=
  match act with
  | .proceed _ _ => inferInstanceAs (Decidable (_ = true))
  | .publish _ _ _ _ | .subscribe _ _ | .dlq _ | .receive _ => inferInstanceAs (Decidable True)

/-- The group sees a step as a step of its own, or not at all. -/
abbrev Follows (w : World) (act : Act) (next : World) : Prop :=
  Library.Mirrors (Solo.step name) (World.input name group) (World.solo name group) w act next

end View

section Follows

variable {name group : String} {w : World}

theorem solo_eq {next : World} (sameMax : next.broker.maxRetries = w.broker.maxRetries)
    (lane : (next.broker.topic name).lane group = (w.broker.topic name).lane group)
    (workers : next.tasks.filterMap (Task.worker name group) =
      w.tasks.filterMap (Task.worker name group))
    (events : next.events = w.events) : next.solo name group = w.solo name group := by
  unfold World.solo World.view
  rw [sameMax, lane, workers, events]

theorem solo_spawn {task : Task} (other : task.worker name group = none) :
    (w.spawn task).solo name group = w.solo name group := by
  refine solo_eq rfl rfl ?_ rfl
  rw [World.spawn, List.filterMap_append, List.filterMap_cons_none other]
  exact List.append_nil _

/-- A task that is no subscriber of the group goes on. -/
theorem solo_move {i : Nat} {b : Broker} {old task : Task} (current : w.tasks[i]? = some old)
    (sameMax : b.maxRetries = w.broker.maxRetries)
    (lane : (b.topic name).lane group = (w.broker.topic name).lane group)
    (outside : old.worker name group = none) (stays : task.worker name group = none) :
    (w.move i b task).solo name group = w.solo name group :=
  solo_eq sameMax lane (Library.filterMap_set_none current outside stays) rfl

theorem Delivers.toQueue {maxRetries : Int64} {err : Bool} {lane lane' : Lane}
    {stage next : Stage} (delivers : Delivers maxRetries lane err stage lane' next)
    (spares : stage.rewrites = false) : lane'.toQueue = lane.toQueue := by
  cases delivers with
  | clear mv retries => cases spares
  | write text => cases spares
  | requeue mv => cases spares
  | _ => rfl

theorem maxRetries_getOrCreateTopic (b : Broker) (name : String) :
    (b.getOrCreateTopic name).maxRetries = b.maxRetries := by
  unfold Broker.getOrCreateTopic
  cases b.t.lookup name with
  | some tp => rfl
  | none => rfl

theorem worker_next (ofTopic : String) (call : Call) :
    (call.next ofTopic).worker name group = none := by
  cases call with
  | publish key value headers => rfl
  | subscribe ofGroup => rfl

theorem follows_append {i : Nat} {err : Bool} {ofTopic key : String} {value : Bytes}
    {headers : Headers} {tp : Topic}
    (current : w.tasks[i]? = some (.append ofTopic key value headers))
    (found : w.broker.t.lookup ofTopic = some tp) :
    Follows name group w (.proceed i err)
      (w.move i (w.broker.putTopic ofTopic (tp.append ofTopic key value headers))
        .countPublished) := by
  by_cases mine : ofTopic = name
  · subst mine
    have isInput : World.input ofTopic group w (.proceed i err) =
        some (.publish key value headers) := by
      simp only [World.input, current, if_true]
    have isTopic := Broker.topic_of_lookup found
    have newTopic : (w.broker.putTopic ofTopic (tp.append ofTopic key value headers)).topic
        ofTopic = tp.append ofTopic key value headers := Broker.topic_insert_self rfl
    have workers : (w.tasks.set i .countPublished).filterMap (Task.worker ofTopic group) =
        w.tasks.filterMap (Task.worker ofTopic group) :=
      Library.filterMap_set_none current rfl rfl
    refine Library.mirrors_of_some isInput (congrArg some (Solo.ext rfl ?_ workers.symm rfl))
    simp only [Solo.published, World.move, World.solo, newTopic, isTopic]
    rfl
  · have unseen : World.input name group w (.proceed i err) = none := by
      simp only [World.input, current, if_neg mine]
    refine Library.mirrors_of_none unseen (solo_move current rfl ?_ rfl rfl)
    exact Broker.topic_insert_congr (fun tp => tp.lane group) found rfl
      fun same => absurd same mine

theorem follows_enroll {i : Nat} {err : Bool} {ofTopic ofGroup : String} {tp : Topic}
    (current : w.tasks[i]? = some (.enroll ofTopic ofGroup))
    (found : w.broker.t.lookup ofTopic = some tp) :
    Follows name group w (.proceed i err)
      ((w.move i (w.broker.putTopic ofTopic (tp.enroll ofGroup)) .done).spawn
        (.subscriber ofTopic ofGroup .idle none)) := by
  have sameLane : (tp.enroll ofGroup).lane group = tp.lane group := by
    unfold Topic.lane
    rw [Topic.queue_enroll, Topic.cursor_enroll]
  have moved : (w.move i (w.broker.putTopic ofTopic (tp.enroll ofGroup)) .done).solo name group =
      w.solo name group :=
    solo_move current rfl
      (Broker.topic_insert_congr (fun tp => tp.lane group) found rfl fun _ => sameLane) rfl rfl
  by_cases mine : ofTopic = name ∧ ofGroup = group
  · have isInput : World.input name group w (.proceed i err) = some .join := by
      simp only [World.input, current, if_pos mine]
    have joins : (Task.subscriber ofTopic ofGroup .idle none).worker name group = some .idle :=
      if_pos mine
    refine Library.mirrors_of_some isInput ?_
    rw [← moved]
    refine congrArg some (Solo.ext rfl rfl ?_ rfl)
    simp only [World.solo, World.spawn, List.filterMap_append, List.filterMap_cons_some joins,
      List.filterMap_nil]
  · have unseen : World.input name group w (.proceed i err) = none := by
      simp only [World.input, current, if_neg mine]
    refine Library.mirrors_of_none unseen ?_
    rw [← moved]
    exact solo_spawn (if_neg mine)

section Deliver

variable {i : Nat} {err : Bool} {ofTopic ofGroup : String} {stage after : Stage} {ch : Option Nat}
  {tp : Topic} {lane : Lane}

theorem input_subscriber (current : w.tasks[i]? = some (.subscriber ofTopic ofGroup stage ch))
    (mine : ofTopic = name ∧ ofGroup = group) :
    World.input name group w (.proceed i err) =
      some (.proceed (Library.rank (Task.worker name group) w.tasks i) err) := by
  simp only [World.input, current, if_pos mine]

theorem input_other (current : w.tasks[i]? = some (.subscriber ofTopic ofGroup stage ch))
    (other : ¬(ofTopic = name ∧ ofGroup = group)) :
    World.input name group w (.proceed i err) = none := by
  simp only [World.input, current, if_neg other]

theorem view_delivered :
    (w.delivered i err ofTopic ofGroup stage ch tp lane after).view name group =
      w.view name group ++
        if ofTopic = name ∧ ofGroup = group then (tp.lane ofGroup).events err stage else [] := by
  unfold World.view World.delivered
  rw [List.filterMap_append, List.filterMap_map]
  by_cases mine : ofTopic = name ∧ ofGroup = group
  · have all : eventOf name group ∘ (fun event => (ofTopic, ofGroup, event)) = some :=
      funext fun event => if_pos mine
    rw [if_pos mine, all, List.filterMap_some]
  · have nothing : eventOf name group ∘ (fun event => (ofTopic, ofGroup, event)) = fun _ => none :=
      funext fun event => if_neg mine
    rw [if_neg mine, nothing, List.filterMap_none]

theorem follows_deliver (spares : Spares name group w (.proceed i err))
    (current : w.tasks[i]? = some (.subscriber ofTopic ofGroup stage ch))
    (found : w.broker.t.lookup ofTopic = some tp)
    (delivers : Delivers w.broker.maxRetries (tp.lane ofGroup) err stage lane after) :
    Follows name group w (.proceed i err)
      (w.delivered i err ofTopic ofGroup stage ch tp lane after) := by
  have isTopic := Broker.topic_of_lookup found
  have newTopic : (w.broker.putLane ofTopic ofGroup tp lane stage ch).topic ofTopic =
      tp.putLane ofGroup lane stage := Broker.topic_insert_self rfl
  by_cases mine : ofTopic = name ∧ ofGroup = group
  · refine Library.mirrors_of_some (input_subscriber current mine) ?_
    obtain ⟨rfl, rfl⟩ := mine
    have selected : (Task.subscriber ofTopic ofGroup stage ch).worker ofTopic ofGroup =
        some stage := if_pos ⟨rfl, rfl⟩
    have stays : (Task.subscriber ofTopic ofGroup after (w.channelAfter ofTopic stage ch)).worker
        ofTopic ofGroup = some after := if_pos ⟨rfl, rfl⟩
    have isWorker := Library.getElem?_filterMap current selected
    have sameLane : (w.solo ofTopic ofGroup).lane = tp.lane ofGroup := by
      rw [World.solo, isTopic]
    have goesOn : (w.solo ofTopic ofGroup).lane.deliver (w.solo ofTopic ofGroup).maxRetries err
        stage = some (lane, after) := by
      rw [sameLane]
      exact deliver_of_delivers delivers
    simp only [Solo.step]
    rw [show (w.solo ofTopic ofGroup).workers[_]? = some stage from isWorker, Option.map_some]
    simp only [goesOn]
    refine congrArg some (Solo.ext rfl ?_ ?_ ?_)
    · simp only [Solo.delivered, World.solo, World.delivered, newTopic]
      exact (Topic.lane_putLane_self tp ofGroup lane stage).symm
    · exact (Library.filterMap_set_some current selected stays).symm
    · have seen : (w.delivered i err ofTopic ofGroup stage ch tp lane after).view ofTopic ofGroup =
          w.view ofTopic ofGroup ++ (tp.lane ofGroup).events err stage := by
        rw [view_delivered, if_pos ⟨rfl, rfl⟩]
      simp only [Solo.delivered, sameLane]
      exact seen.symm
  · refine Library.mirrors_of_none (input_other current mine) ?_
    have outside (stage : Stage) (ch : Option Nat) :
        (Task.subscriber ofTopic ofGroup stage ch).worker name group = none := if_neg mine
    refine Solo.ext rfl ?_ ?_ ?_
    · refine Broker.topic_insert_congr (fun tp => tp.lane group) found rfl ?_
      intro same
      have otherGroup : ofGroup ≠ group := fun sameGroup => mine ⟨same, sameGroup⟩
      have keeps : stage.rewrites = false := by
        simpa [Spares, current, Task.disturbs, same, otherGroup] using spares
      unfold Topic.lane
      rw [Topic.cursor_putLane_ne tp lane stage (Ne.symm otherGroup)]
      exact congrArg (fun q => Lane.mk q _) (delivers.toQueue keeps)
    · exact Library.filterMap_set_none current (outside _ _) (outside _ _)
    · rw [World.solo, view_delivered, if_neg mine]
      exact List.append_nil _

theorem follows_panic (current : w.tasks[i]? = some (.subscriber ofTopic ofGroup stage ch))
    (found : w.broker.t.lookup ofTopic = some tp)
    (panicked : (tp.lane ofGroup).deliver w.broker.maxRetries err stage = none) :
    Follows name group w (.proceed i err)
      { w with broker := { w.broker with panicked := true } } := by
  have isTopic := Broker.topic_of_lookup found
  by_cases mine : ofTopic = name ∧ ofGroup = group
  · refine Library.mirrors_of_some (input_subscriber current mine) ?_
    obtain ⟨rfl, rfl⟩ := mine
    have selected : (Task.subscriber ofTopic ofGroup stage ch).worker ofTopic ofGroup =
        some stage := if_pos ⟨rfl, rfl⟩
    have isWorker := Library.getElem?_filterMap current selected
    have stops : (w.solo ofTopic ofGroup).lane.deliver (w.solo ofTopic ofGroup).maxRetries err
        stage = none := by
      rw [World.solo, isTopic]
      exact panicked
    simp only [Solo.step]
    rw [show (w.solo ofTopic ofGroup).workers[_]? = some stage from isWorker, Option.map_some]
    simp only [stops]
    rfl
  · exact Library.mirrors_of_none (input_other current mine) rfl

end Deliver

theorem follows_steps {act : Act} {next : World} (spares : Spares name group w act)
    (steps : Steps w act next) : Follows name group w act next := by
  cases steps with
  | publish topic key value headers => exact solo_spawn rfl
  | subscribe topic ofGroup => exact solo_spawn rfl
  | dlq topic => exact solo_spawn rfl
  | receive full => rfl
  | @create i err ofTopic call current unlocked =>
      refine Library.mirrors_of_none (by simp only [World.input, current]) ?_
      refine solo_move current (maxRetries_getOrCreateTopic _ _) ?_ rfl (worker_next _ _)
      rw [Broker.topic_getOrCreateTopic]
  | append current found => exact follows_append current found
  | countPublished current =>
      refine Library.mirrors_of_none (by simp only [World.input, current]) ?_
      exact solo_move current rfl rfl rfl rfl
  | enroll current found => exact follows_enroll current found
  | deliver current found delivers => exact follows_deliver spares current found delivers
  | panic current found panicked => exact follows_panic current found panicked
  | @readChannel i c err ofTopic current found =>
      have moved : (w.move i w.broker .done).solo name group = w.solo name group :=
        solo_move current rfl rfl rfl rfl
      exact Library.mirrors_of_none (by simp only [World.input, current]) moved
  | missChannel current missing =>
      refine Library.mirrors_of_none (by simp only [World.input, current]) ?_
      exact solo_move current rfl rfl rfl rfl
  | @makeChannel i err ofTopic current =>
      have moved : (w.move i (w.broker.makeChannel ofTopic) .done).solo name group =
          w.solo name group := solo_move current rfl rfl rfl rfl
      exact Library.mirrors_of_none (by simp only [World.input, current]) moved

/-- What a group sees in a run that spares it is a run of its own. -/
theorem solo_of_run {maxRetries : Int64} {acts : List Act}
    (reached : execute World.step (World.start maxRetries) acts = some w)
    (spares : Guarded World.step (Spares name group) (World.start maxRetries) acts) :
    execute (Solo.step name) (Solo.fresh (Broker.opened maxRetries).maxRetries)
        (inputs World.step (World.input name group) (World.start maxRetries) acts) =
      some (w.solo name group) :=
  Library.execute_inputs World.step (Solo.step name) (World.input name group)
    (World.solo name group)
    (fun _ _ _ guard stepped => follows_steps guard (steps_of_step stepped)) spares reached

end Follows

/-! ## A group whose handler always succeeds -/

/-- The handler has returned no error. -/
def Succeeds (events : List Event) : Prop := ∀ mv, .returned mv true ∉ events

/-- What is published with a message. -/
def Message.content (m : Message) : String × Bytes × Headers := (m.key, m.value, m.headers)

def SoloAct.message : SoloAct → Option (String × Bytes × Headers)
  | .publish key value headers => some (key, value, headers)
  | _ => none

/-- The stages of deliveries that succeed, on a queue that has each message at its own
place. -/
def Stage.Plain (lane : Lane) : Stage → Prop
  | .idle => True
  | .taken pos mv => pos = mv ∧ mv < lane.messages.length
  | .handling pos mv => pos = mv ∧ mv < lane.messages.length
  | .succeeded _ => True
  | _ => False

/-- Nothing was put back: the queue has the messages in the order of their publication,
and each was delivered as it is. -/
structure Once (s : Solo) : Prop where
  queue : s.lane.queue = List.range s.lane.messages.length
  stages : ∀ stage ∈ s.workers, stage.Plain s.lane
  called : ∀ pos mv m, .called pos mv m ∈ s.events →
    pos = mv ∧ mv < s.lane.messages.length ∧ m = s.lane.messages[mv]?

theorem Stage.Plain.mono {lane lane' : Lane} {stage : Stage} (plain : stage.Plain lane)
    (grows : lane.messages.length ≤ lane'.messages.length) : stage.Plain lane' := by
  cases stage with
  | taken pos mv => exact ⟨plain.1, Nat.lt_of_lt_of_le plain.2 grows⟩
  | handling pos mv => exact ⟨plain.1, Nat.lt_of_lt_of_le plain.2 grows⟩
  | _ => exact plain

section Once

variable {name : String} {s next : Solo} {act : SoloAct}

theorem once_published (once : Once s) (key : String) (value : Bytes) (headers : Headers) :
    Once (s.published name key value headers) := by
  have longer : (s.published name key value headers).lane.messages.length =
      s.lane.messages.length + 1 := List.length_append
  constructor
  · rw [longer, List.range_succ]
    change s.lane.queue ++ [s.lane.messages.length] = _
    rw [once.queue]
  · intro stage member
    exact (once.stages stage member).mono (by omega)
  · intro pos mv m member
    obtain ⟨same, inside, isMessage⟩ := once.called pos mv m member
    refine ⟨same, by omega, ?_⟩
    rw [isMessage]
    exact (List.getElem?_append_left inside).symm

/-- A step of a delivery that does not end in an error writes neither the queue nor the
messages. -/
theorem delivers_plain {maxRetries : Int64} {err : Bool} {lane lane' : Lane}
    {stage after : Stage} (delivers : Delivers maxRetries lane err stage lane' after)
    (queue : lane.queue = List.range lane.messages.length) (plain : stage.Plain lane)
    (succeeds : ∀ mv, .returned mv true ∉ lane.events err stage) :
    lane'.toQueue = lane.toQueue ∧ after.Plain lane' := by
  cases delivers with
  | wait atEnd => exact ⟨rfl, trivial⟩
  | @take _ mv found =>
      rw [queue] at found
      obtain ⟨inside, isMv⟩ := List.getElem?_eq_some_iff.mp found
      rw [List.getElem_range] at isMv
      rw [List.length_range] at inside
      exact ⟨rfl, isMv, isMv ▸ inside⟩
  | call pos mv => exact ⟨rfl, plain⟩
  | succeed pos mv => exact ⟨rfl, trivial⟩
  | fail pos mv => exact absurd (List.mem_singleton_self _) (succeeds mv)
  | ack mv => exact ⟨rfl, trivial⟩
  | _ => exact absurd plain id

theorem once_steps (once : Once s) (steps : Solo.Steps name s act next)
    (succeeds : Succeeds next.events) :
    Once next ∧ next.lane.messages.map Message.content =
      s.lane.messages.map Message.content ++ act.message.toList := by
  cases steps with
  | publish key value headers =>
      refine ⟨once_published once key value headers, ?_⟩
      exact List.map_append
  | join =>
      refine ⟨⟨once.queue, ?_, once.called⟩, (List.append_nil _).symm⟩
      exact Library.each_concat once.stages trivial
  | @deliver i err stage after lane current delivers =>
      have plain := once.stages stage (List.mem_of_getElem? current)
      have noError : ∀ mv, .returned mv true ∉ s.lane.events err stage := by
        intro mv member
        exact succeeds mv (List.mem_append_right _ member)
      obtain ⟨same, plainAfter⟩ := delivers_plain delivers once.queue plain noError
      have sameMessages : lane.messages = s.lane.messages := congrArg Queue.messages same
      have sameQueue : lane.queue = s.lane.queue := congrArg Queue.queue same
      refine ⟨⟨?_, ?_, ?_⟩, ?_⟩
      · change lane.queue = List.range lane.messages.length
        rw [sameQueue, sameMessages]
        exact once.queue
      · refine Library.each_set ?_ plainAfter
        intro stage member
        exact (once.stages stage member).mono (by rw [← sameMessages]; exact Nat.le_refl _)
      · intro pos mv m member
        change pos = mv ∧ mv < lane.messages.length ∧ m = lane.messages[mv]?
        rw [sameMessages]
        rcases List.mem_append.mp member with before | isNew
        · exact once.called pos mv m before
        · have taken := taken_of_called isNew
          subst taken
          cases List.mem_singleton.mp isNew
          exact ⟨plain.1, plain.2, rfl⟩
      · change lane.messages.map Message.content = _
        rw [sameMessages]
        exact (List.append_nil _).symm
  | panic current panicked => exact ⟨once, (List.append_nil _).symm⟩

theorem events_steps (steps : Solo.Steps name s act next) : s.events <+: next.events := by
  cases steps with
  | deliver current delivers => exact List.prefix_append _ _
  | _ => exact List.prefix_rfl

theorem events_of_execute {last : Solo} {acts : List SoloAct}
    (reached : execute (Solo.step name) s acts = some last) : s.events <+: last.events :=
  Library.invariant_of_execute (Solo.step name) (fun t => s.events <+: t.events)
    (fun _ _ _ grown stepped => grown.trans (events_steps (Solo.steps_of_step stepped)))
    List.prefix_rfl reached

theorem once_of_execute {last : Solo} {acts : List SoloAct} (once : Once s)
    (reached : execute (Solo.step name) s acts = some last) (succeeds : Succeeds last.events) :
    Once last ∧ last.lane.messages.map Message.content =
      s.lane.messages.map Message.content ++ acts.filterMap SoloAct.message := by
  induction acts generalizing s with
  | nil =>
      cases Option.some.inj reached
      exact ⟨once, (List.append_nil _).symm⟩
  | cons act rest ih =>
      rw [Library.execute_cons] at reached
      obtain ⟨next, stepped, later⟩ := Option.bind_eq_some_iff.mp reached
      have soFar : Succeeds next.events := by
        intro mv member
        exact succeeds mv ((events_of_execute later).subset member)
      obtain ⟨onceNext, added⟩ := once_steps once (Solo.steps_of_step stepped) soFar
      obtain ⟨onceLast, contents⟩ := ih onceNext later
      refine ⟨onceLast, ?_⟩
      rw [contents, added, List.append_assoc]
      congr 1
      cases isMessage : act.message with
      | none => rw [List.filterMap_cons_none isMessage]; rfl
      | some message => rw [List.filterMap_cons_some isMessage]; rfl

end Once

/-- Two runs in which no other group of the topic retries a delivery, and which are the
same for the group: the same messages are published, and its subscribers take the
same steps with the same results of their handler.  The deliveries to the group are
the same, with the same outcomes.  If its handler always succeeds, they are the
published messages, unchanged, each once. -/
theorem groups_independent {maxRetries : Int64} {name group : String} {acts acts' : List Act}
    {w w' : World} (reached : execute World.step (World.start maxRetries) acts = some w)
    (spares : Guarded World.step (Spares name group) (World.start maxRetries) acts)
    (reached' : execute World.step (World.start maxRetries) acts' = some w')
    (spares' : Guarded World.step (Spares name group) (World.start maxRetries) acts')
    (same : inputs World.step (World.input name group) (World.start maxRetries) acts =
      inputs World.step (World.input name group) (World.start maxRetries) acts') :
    w.view name group = w'.view name group ∧
      (Succeeds (w.view name group) →
        (w.broker.topic name).messages.map Message.content =
          (inputs World.step (World.input name group) (World.start maxRetries) acts).filterMap
            SoloAct.message ∧
        (∀ pos mv m, .called pos mv m ∈ w.view name group →
          pos = mv ∧ m = (w.broker.topic name).messages[mv]?) ∧
        ∀ n, w.calls name group n + w.tasks.countP (Task.takes name group n) =
          (decide (n < (w.broker.topic name).cursor group)).toNat) := by
  have alone := solo_of_run reached spares
  have alone' := solo_of_run reached' spares'
  constructor
  · rw [same, alone'] at alone
    exact congrArg Solo.events (Option.some.inj alone).symm
  · intro succeeds
    have fresh : Once (Solo.fresh (Broker.opened maxRetries).maxRetries) :=
      ⟨rfl, fun _ member => absurd member List.not_mem_nil,
        fun _ _ _ member => absurd member List.not_mem_nil⟩
    obtain ⟨once, contents⟩ := once_of_execute fresh alone succeeds
    have passed : Passed name group w := invariant_of_steps _
      (fun _ _ _ held steps => passed_steps held steps) (passed_start maxRetries) reached
    refine ⟨contents, ?_, passed.once⟩
    intro pos mv m member
    obtain ⟨samePos, _, isMessage⟩ := once.called pos mv m member
    exact ⟨samePos, isMessage⟩

/-- A message is published to `t`, and a subscriber joins each of the groups `a` and `b`.
That of `a` takes some steps, with the given result of its handler, then that of
`b`. -/
def twoGroups (err : Bool) (first second : Nat) : List Act :=
  [.publish "t" "k" [1] ∅, .proceed 0 false, .proceed 0 false, .proceed 0 false,
    .subscribe "t" "a", .proceed 1 false, .proceed 1 false,
    .subscribe "t" "b", .proceed 3 false, .proceed 3 false] ++
  List.replicate first (.proceed 2 err) ++ List.replicate second (.proceed 4 false)

/-- The same without the group `a`. -/
def groupAlone (steps : Nat) : List Act :=
  [.publish "t" "k" [1] ∅, .proceed 0 false, .proceed 0 false, .proceed 0 false,
    .subscribe "t" "b", .proceed 1 false, .proceed 1 false] ++
  List.replicate steps (.proceed 2 false)

/-- The message of both runs, with the given headers. -/
def sharedMessage (headers : Headers) : Message := ⟨"t", 1, "k", [1], headers⟩

theorem group_sees_published_message :
    ∃ w w', execute World.step (World.start 2) (twoGroups false 4 4) = some w ∧
      execute World.step (World.start 2) (groupAlone 4) = some w' ∧
      w.view "t" "b" = w'.view "t" "b" ∧
      (w.broker.topic "t").messages.map Message.content = [("k", [1], ∅)] ∧
      w.calls "t" "b" 0 = 1 := by
  obtain ⟨w, reached, view, below, settled⟩ :=
    Library.exists_of_execute_test World.step (World.start 2) (twoGroups false 4 4)
      (fun w => w.view "t" "b" =
          [.called 0 0 (some (sharedMessage ∅)), .returned 0 false, .acked 0] ∧
        0 < (w.broker.topic "t").cursor "b" ∧ Settled w) (by decide +kernel)
  obtain ⟨w', reached', _⟩ :=
    Library.exists_of_execute_test World.step (World.start 2) (groupAlone 4)
      (fun _ => True) (by decide +kernel)
  have spares : Guarded World.step (Spares "t" "b") (World.start 2) (twoGroups false 4 4) :=
    Library.guarded_of_check World.step (by decide +kernel)
  have spares' : Guarded World.step (Spares "t" "b") (World.start 2) (groupAlone 4) :=
    Library.guarded_of_check World.step (by decide +kernel)
  obtain ⟨sameView, whenSucceeds⟩ := groups_independent reached spares reached' spares'
    (by decide +kernel)
  have succeeds : Succeeds (w.view "t" "b") := by
    intro mv member
    rw [view] at member
    simp at member
  obtain ⟨contents, _, once⟩ := whenSucceeds succeeds
  have called := once 0
  rw [takes_of_settled settled, decide_eq_true below] at called
  have published : (inputs World.step (World.input "t" "b") (World.start 2)
      (twoGroups false 4 4)).filterMap SoloAct.message = [("k", [1], ∅)] := by decide +kernel
  exact ⟨w, w', reached, reached', sameView, contents.trans published, called⟩

/-- The handler of `b` always succeeds, and its inputs are the same in both runs.  When
the handler of `a` fails once, `b` gets the message twice, with the header of the
retry. -/
theorem group_sees_retry_of_other :
    inputs World.step (World.input "t" "b") (World.start 2) (twoGroups true 8 8) =
      inputs World.step (World.input "t" "b") (World.start 2) (twoGroups false 4 8) ∧
    (execute World.step (World.start 2) (twoGroups true 8 8)).map (World.view "t" "b") =
      some [.called 0 0 (some (sharedMessage ((∅ : Headers).insert "retries" [49]))),
        .returned 0 false, .acked 0,
        .called 1 0 (some (sharedMessage ((∅ : Headers).insert "retries" [49]))),
        .returned 0 false, .acked 0] ∧
    (execute World.step (World.start 2) (twoGroups false 4 8)).map (World.view "t" "b") =
      some [.called 0 0 (some (sharedMessage ∅)), .returned 0 false, .acked 0] := by
  decide +kernel

end MiniCloud.Mq
