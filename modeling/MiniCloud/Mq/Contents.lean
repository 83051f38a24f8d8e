import MiniCloud.Mq.Broker

/-!
# The contents of a message

A message is to be delivered again, and routed to the dead-letter queue, as it was
published, apart from the header that counts its retries.  All deliveries share one
message, and before it goes back to the queue its headers are replaced by an empty map;
the loop that was to copy them runs over that map.  A message whose only header is the
counter stays as it was published.
-/

namespace MiniCloud.Mq

open MiniCloud.Library (execute inputs Guarded)

/-- The message without the counter. -/
def Message.strip (m : Message) : Message := { m with headers := m.headers.erase "retries" }

/-- What a call of `Publish` gives for the message. -/
structure Publication where
  key : String
  value : Bytes
  headers : Headers
  deriving DecidableEq

/-- What a step publishes on a topic. -/
def publication (name : String) (w : World) : Act → Option Publication
  | .proceed i _ =>
      match w.tasks[i]? with
      | some (.append ofTopic key value headers) =>
          if ofTopic = name then some ⟨key, value, headers⟩ else none
      | _ => none
  | _ => none

/-- The message is the one that was published as number `mv` on the topic, apart from the
counter. -/
structure Carries (name : String) (mv : Nat) (p : Publication) (m : Message) : Prop where
  topic : m.topic = name
  offset : m.offset = mv + 1
  key : m.key = p.key
  value : m.value = p.value
  headers : ∀ header, header ≠ "retries" → m.headers.lookup header = p.headers.lookup header

/-- The message whose headers a step clears. -/
def World.clears (w : World) : Act → Option Ref
  | .proceed i _ =>
      match w.tasks[i]? with
      | some (.subscriber name _ (.clearing mv _) _) => some (name, mv)
      | _ => none
  | _ => none

/-- The step clears no header but the counter. -/
def KeepsHeaders (w : World) (act : Act) : Prop :=
  ∀ ref ∈ w.clears act, ((w.broker.topic ref.1).headers ref.2).erase "retries" = ∅

instance (w : World) (act : Act) : Decidable (KeepsHeaders w act) :=
  inferInstanceAs (Decidable (∀ ref ∈ w.clears act,
    ((w.broker.topic ref.1).headers ref.2).erase "retries" = ∅))

/-! ## The log of a topic -/

/-- The offsets that were given, and the messages without the counter. -/
def Queue.log (q : Queue) : Nat × List Message := (q.nextOff, q.messages.map Message.strip)

/-- What a topic amounts to: a log that publications are appended to. -/
def record (name : String) (log : Nat × List Message) (p : Publication) :
    Option (Nat × List Message) :=
  some (log.1 + 1,
    log.2 ++ [Message.strip ⟨name, log.1 + 1, p.key, p.value, p.headers⟩])

theorem erase_insert_counter (headers : Headers) (v : Bytes) :
    (headers.insert "retries" v).erase "retries" = headers.erase "retries" := by
  apply AList.ext
  change List.kerase "retries" (List.kinsert "retries" v headers.entries) =
    List.kerase "retries" headers.entries
  rw [List.kinsert_def]
  exact List.kerase_cons_eq rfl

/-- Headers that differ in the counter only leave the log as it is. -/
theorem log_setHeaders {q : Queue} {mv : Nat} {headers : Headers}
    (same : ∀ m, q.messages[mv]? = some m → headers.erase "retries" = m.headers.erase "retries") :
    (q.setHeaders mv headers).log = q.log := by
  refine Prod.ext rfl (List.ext_getElem? fun j => ?_)
  change (List.map Message.strip (q.messages.modify mv _))[j]? = (q.messages.map Message.strip)[j]?
  rw [List.getElem?_map, List.getElem?_map]
  by_cases isMv : mv = j
  · subst isMv
    rw [List.getElem?_modify_eq]
    cases found : q.messages[mv]? with
    | none => rfl
    | some m =>
        have stripped : Message.strip { m with headers := headers } = m.strip := by
          rw [Message.strip, Message.strip, same m found]
        exact congrArg some stripped
  · rw [List.getElem?_modify_ne _ _ isMv]

theorem headers_of_getElem? {q : Queue} {mv : Nat} {m : Message} (found : q.messages[mv]? = some m) :
    q.headers mv = m.headers := by
  rw [Queue.headers, found]

/-- A step of a delivery that clears no other header leaves the log as it is. -/
theorem Delivers.log {maxRetries : Int64} {err : Bool} {lane lane' : Lane} {stage next : Stage}
    (delivers : Delivers maxRetries lane err stage lane' next)
    (keeps : ∀ mv retries, stage = .clearing mv retries → (lane.headers mv).erase "retries" = ∅) :
    lane'.toQueue.log = lane.toQueue.log := by
  cases delivers with
  | clear mv retries =>
      refine log_setHeaders fun m found => ?_
      rw [← headers_of_getElem? found, keeps mv retries rfl]
      rfl
  | write text =>
      refine log_setHeaders fun m found => ?_
      rw [erase_insert_counter, headers_of_getElem? found]
  | _ => rfl

/-- The log of a topic. -/
def World.log (name : String) (w : World) : Nat × List Message := (w.broker.topic name).toQueue.log

/-- Every step that keeps the headers publishes on the log, or leaves it as it is. -/
theorem log_steps {name : String} {w next : World} {act : Act} (keeps : KeepsHeaders w act)
    (steps : Steps w act next) :
    Library.Mirrors (record name) (publication name) (World.log name) w act next := by
  cases steps with
  | publish | subscribe | dlq | receive => rfl
  | create current unlocked =>
      refine Library.mirrors_of_none (by simp only [publication, current]) ?_
      unfold World.log
      rw [World.move, Broker.topic_getOrCreateTopic]
  | append current found =>
      rename_i i err ofTopic key value headers tp
      by_cases isName : ofTopic = name
      · subst isName
        have published : publication ofTopic w (.proceed i err) = some ⟨key, value, headers⟩ := by
          simp only [publication, current, if_true]
        have before : w.log ofTopic = tp.toQueue.log := by
          rw [World.log, Broker.topic_of_lookup found]
        have appended : (w.broker.putTopic ofTopic (tp.append ofTopic key value headers)).topic
            ofTopic = tp.append ofTopic key value headers := Broker.topic_insert_self rfl
        have after : (w.move i (w.broker.putTopic ofTopic (tp.append ofTopic key value headers))
            .countPublished).log ofTopic = (tp.toQueue.append ofTopic key value headers).log :=
          congrArg (fun tp : Topic => tp.toQueue.log) appended
        refine Library.mirrors_of_some published ?_
        rw [before, after, Queue.log, Queue.log, Queue.append, List.map_append]
        rfl
      · refine Library.mirrors_of_none (by simp only [publication, current, if_neg isName]) ?_
        exact Broker.topic_insert_congr (fun tp => tp.toQueue.log) found rfl
          fun same => absurd same isName
  | countPublished current =>
      exact Library.mirrors_of_none (by simp only [publication, current]) rfl
  | enroll current found =>
      rename_i i err ofTopic group tp
      refine Library.mirrors_of_none (by simp only [publication, current]) ?_
      exact Broker.topic_insert_congr (fun tp => tp.toQueue.log) found rfl
        fun _ => congrArg Queue.log (tp.queue_enroll group)
  | deliver current found delivers =>
      rename_i i err ofTopic group stage after ch tp lane
      refine Library.mirrors_of_none (by simp only [publication, current]) ?_
      refine Broker.topic_insert_congr (fun tp => tp.toQueue.log) found rfl
        fun _ => delivers.log fun mv retries clearing => ?_
      subst clearing
      have kept := keeps (ofTopic, mv) (by simp only [World.clears, current]; rfl)
      rwa [Broker.topic_of_lookup found] at kept
  | panic current found panicked =>
      exact Library.mirrors_of_none (by simp only [publication, current]) rfl
  | readChannel current found =>
      exact Library.mirrors_of_none (by simp only [publication, current]) rfl
  | missChannel current missing =>
      exact Library.mirrors_of_none (by simp only [publication, current]) rfl
  | makeChannel current =>
      exact Library.mirrors_of_none (by simp only [publication, current]) rfl

/-! ## References to messages -/

/-- The message that a subscriber works on. -/
def Stage.message : Stage → Option Nat
  | .idle => none
  | .taken _ mv | .handling _ mv | .succeeded mv | .failed mv | .clearing mv _ | .writing mv _
  | .requeueing mv | .requeued mv | .burying mv | .buried mv | .routing mv | .sending mv => some mv

def Task.Holds (name : String) (mv : Nat) : Task → Prop
  | .subscriber ofTopic _ stage _ => ofTopic = name ∧ stage.message = some mv
  | _ => False

/-- Something refers to a message of a topic: its queue, its dead letters, a subscriber, or a
channel. -/
inductive World.Refers (w : World) (name : String) (mv : Nat) : Prop where
  | queued (member : mv ∈ (w.broker.topic name).queue)
  | buried (member : mv ∈ (w.broker.topic name).dlq)
  | held {task : Task} (member : task ∈ w.tasks) (holds : task.Holds name mv)
  | sent {buf : List Ref} (member : buf ∈ w.broker.chans) (inside : (name, mv) ∈ buf)

section Refers

variable {name : String} {mv : Nat} {w next : World}

/-- Queue and dead letters of the topic stay, and no new task or entry of a channel refers to
a message. -/
theorem World.Refers.frame (refers : next.Refers name mv)
    (queue : (next.broker.topic name).queue = (w.broker.topic name).queue)
    (dlq : (next.broker.topic name).dlq = (w.broker.topic name).dlq)
    (tasks : ∀ task ∈ next.tasks, task ∈ w.tasks ∨ ¬task.Holds name mv)
    (chans : ∀ buf ∈ next.broker.chans, ∀ ref ∈ buf, ∃ old ∈ w.broker.chans, ref ∈ old) :
    w.Refers name mv := by
  cases refers with
  | queued member => exact .queued (queue ▸ member)
  | buried member => exact .buried (dlq ▸ member)
  | held member holds =>
      rcases tasks _ member with before | other
      · exact .held before holds
      · exact absurd holds other
  | sent member inside =>
      obtain ⟨old, before, inOld⟩ := chans _ member _ inside
      exact .sent before inOld

/-- The same for a step that leaves the channels as they are. -/
theorem same_chans (same : next.broker.chans = w.broker.chans) :
    ∀ buf ∈ next.broker.chans, ∀ ref ∈ buf, ∃ old ∈ w.broker.chans, ref ∈ old := by
  intro buf member ref inside
  exact ⟨buf, same ▸ member, inside⟩

theorem tasks_set {i : Nat} {task : Task} (other : ¬task.Holds name mv) :
    ∀ held ∈ w.tasks.set i task, held ∈ w.tasks ∨ ¬held.Holds name mv :=
  Library.each_set (fun _ member => Or.inl member) (Or.inr other)

theorem tasks_concat {task : Task} (other : ¬task.Holds name mv) :
    ∀ held ∈ w.tasks ++ [task], held ∈ w.tasks ∨ ¬held.Holds name mv :=
  Library.each_concat (fun _ member => Or.inl member) (Or.inr other)

/-- A new channel is empty. -/
theorem chans_makeChannel (b : Broker) (ofTopic : String) :
    ∀ buf ∈ (b.makeChannel ofTopic).chans, ∀ ref ∈ buf, ∃ old ∈ b.chans, ref ∈ old := by
  intro buf member ref inside
  rcases List.mem_append.mp member with before | isNew
  · exact ⟨buf, before, inside⟩
  · rw [List.mem_singleton.mp isNew] at inside
    exact absurd inside List.not_mem_nil

theorem chans_getOrCreateTopic (b : Broker) (ofTopic : String) :
    ∀ buf ∈ (b.getOrCreateTopic ofTopic).chans, ∀ ref ∈ buf, ∃ old ∈ b.chans, ref ∈ old := by
  unfold Broker.getOrCreateTopic
  cases b.t.lookup ofTopic with
  | some tp => exact fun buf member ref inside => ⟨buf, member, inside⟩
  | none => exact chans_makeChannel (b.putTopic ofTopic Topic.empty) ofTopic

theorem not_holds_idle {ofTopic group : String} {ch : Option Nat} :
    ¬(Task.subscriber ofTopic group .idle ch).Holds name mv := by
  rintro ⟨_, isMv⟩
  cases isMv

theorem not_holds_next (ofTopic : String) (call : Call) : ¬(call.next ofTopic).Holds name mv := by
  cases call with
  | publish => exact not_false
  | subscribe => exact not_false

end Refers

section Delivery

variable {maxRetries : Int64} {err : Bool} {lane lane' : Lane} {stage after : Stage} {mv : Nat}

/-- A delivery takes its message from the queue. -/
theorem Delivers.message (delivers : Delivers maxRetries lane err stage lane' after)
    (works : after.message = some mv) : stage.message = some mv ∨ mv ∈ lane.queue := by
  cases delivers with
  | take found =>
      cases works
      exact Or.inr (List.mem_of_getElem? found)
  | wait => cases works
  | ack => cases works
  | countRetried => cases works
  | send => cases works
  | _ => exact Or.inl works

theorem mem_concat_message {queue : List Nat} {moved : Nat} (member : mv ∈ queue ++ [moved]) :
    mv ∈ queue ∨ some moved = some mv := by
  rcases List.mem_append.mp member with before | isNew
  · exact Or.inl before
  · rw [List.mem_singleton.mp isNew]
    exact Or.inr rfl

/-- A delivery puts back its own message only. -/
theorem Delivers.mem_queue (delivers : Delivers maxRetries lane err stage lane' after)
    (member : mv ∈ lane'.queue) : mv ∈ lane.queue ∨ stage.message = some mv := by
  cases delivers with
  | requeue moved => exact mem_concat_message member
  | _ => exact Or.inl member

theorem Topic.mem_dlq_putLane {tp : Topic} {group : String}
    (member : mv ∈ (tp.putLane group lane stage).dlq) : mv ∈ tp.dlq ∨ stage.message = some mv := by
  cases stage with
  | burying moved => exact mem_concat_message member
  | _ => exact Or.inl member

theorem Broker.mem_send {chans : List (List Ref)} {ch : Option Nat} {ref new : Ref} {buf : List Ref}
    (member : buf ∈ Broker.send chans ch new) (inside : ref ∈ buf) :
    (∃ old ∈ chans, ref ∈ old) ∨ ref = new := by
  cases ch with
  | none => exact Or.inl ⟨buf, member, inside⟩
  | some c =>
      obtain ⟨j, found⟩ := List.mem_iff_getElem?.mp member
      rcases Library.getElem?_modify_cases found with ⟨_, old, isOld, rfl⟩ | ⟨_, before⟩
      · split at inside
        · rcases List.mem_append.mp inside with before | isNew
          · exact Or.inl ⟨old, List.mem_of_getElem? isOld, before⟩
          · exact Or.inr (List.mem_singleton.mp isNew)
        · exact Or.inl ⟨old, List.mem_of_getElem? isOld, inside⟩
      · exact Or.inl ⟨buf, List.mem_of_getElem? before, inside⟩

end Delivery

section Steps

variable {name : String} {mv i : Nat} {w next : World}

/-- A delivery refers to messages that were referred to before. -/
theorem refers_delivered {err : Bool} {ofTopic group : String} {stage after : Stage}
    {ch : Option Nat} {tp : Topic} {lane : Lane}
    (current : w.tasks[i]? = some (.subscriber ofTopic group stage ch))
    (found : w.broker.t.lookup ofTopic = some tp)
    (delivers : Delivers w.broker.maxRetries (tp.lane group) err stage lane after)
    (refers : (w.delivered i err ofTopic group stage ch tp lane after).Refers name mv) :
    w.Refers name mv := by
  have isTopic := Broker.topic_of_lookup found
  have works : ∀ mv, ofTopic = name → stage.message = some mv → w.Refers name mv :=
    fun _ same isMv => .held (List.mem_of_getElem? current) ⟨same, isMv⟩
  have changed : (w.broker.putLane ofTopic group tp lane stage ch).topic ofTopic =
      tp.putLane group lane stage := Broker.topic_insert_self rfl
  have others : ofTopic ≠ name →
      (w.broker.putLane ofTopic group tp lane stage ch).topic name = w.broker.topic name :=
    fun different => Broker.topic_insert_ne rfl (Ne.symm different)
  cases refers with
  | queued member =>
      change mv ∈ ((w.broker.putLane ofTopic group tp lane stage ch).topic name).queue at member
      by_cases isName : ofTopic = name
      · subst isName
        rw [changed] at member
        rcases delivers.mem_queue member with before | isMv
        · exact .queued (isTopic ▸ before)
        · exact works mv rfl isMv
      · exact .queued (others isName ▸ member)
  | buried member =>
      change mv ∈ ((w.broker.putLane ofTopic group tp lane stage ch).topic name).dlq at member
      by_cases isName : ofTopic = name
      · subst isName
        rw [changed] at member
        rcases Topic.mem_dlq_putLane member with before | isMv
        · exact .buried (isTopic ▸ before)
        · exact works mv rfl isMv
      · exact .buried (others isName ▸ member)
  | held member holds =>
      rcases List.mem_or_eq_of_mem_set member with before | rfl
      · exact .held before holds
      · obtain ⟨rfl, isMv⟩ := holds
        rcases delivers.message isMv with before | queued
        · exact works mv rfl before
        · exact .queued (isTopic ▸ queued)
  | sent member inside =>
      rename_i buf
      have cases : (∃ old ∈ w.broker.chans, (name, mv) ∈ old) ∨
          ofTopic = name ∧ stage.message = some mv := by
        cases stage with
        | sending moved =>
            rcases Broker.mem_send member inside with before | isNew
            · exact Or.inl before
            · cases isNew
              exact Or.inr ⟨rfl, rfl⟩
        | _ => exact Or.inl ⟨buf, member, inside⟩
      rcases cases with ⟨old, before, inOld⟩ | ⟨isName, isMv⟩
      · exact .sent before inOld
      · exact works mv isName isMv

theorem refers_append {key : String} {value : Bytes} {headers : Headers} {ofTopic : String}
    {tp : Topic} (found : w.broker.t.lookup ofTopic = some tp)
    (refers : (w.move i (w.broker.putTopic ofTopic (tp.append ofTopic key value headers))
      .countPublished).Refers name mv) :
    w.Refers name mv ∨ (ofTopic = name ∧ mv = (w.broker.topic name).messages.length) := by
  have isTopic := Broker.topic_of_lookup found
  have dlq : ((w.broker.putTopic ofTopic (tp.append ofTopic key value headers)).topic name).dlq =
      (w.broker.topic name).dlq := Broker.topic_insert_congr Topic.dlq found rfl fun _ => rfl
  by_cases isName : ofTopic = name
  · subst isName
    have appended : (w.broker.putTopic ofTopic (tp.append ofTopic key value headers)).topic
        ofTopic = tp.append ofTopic key value headers := Broker.topic_insert_self rfl
    cases refers with
    | queued member =>
        change mv ∈ ((w.broker.putTopic ofTopic (tp.append ofTopic key value headers)).topic
          ofTopic).queue at member
        rw [appended] at member
        rcases List.mem_append.mp member with before | isNew
        · exact Or.inl (.queued (isTopic ▸ before))
        · rw [isTopic]
          exact Or.inr ⟨rfl, List.mem_singleton.mp isNew⟩
    | buried member => exact Or.inl (.buried (dlq ▸ member))
    | held member holds =>
        rcases List.mem_or_eq_of_mem_set member with before | rfl
        · exact Or.inl (.held before holds)
        · exact absurd holds not_false
    | sent member inside => exact Or.inl (.sent member inside)
  · refine Or.inl (refers.frame ?_ dlq (tasks_set not_false) (same_chans rfl))
    exact Broker.topic_insert_congr (fun tp => tp.queue) found rfl fun same => absurd same isName

/-- Only a message that is being published is newly referred to. -/
theorem refers_steps {act : Act} (steps : Steps w act next) (refers : next.Refers name mv) :
    w.Refers name mv ∨
      ((publication name w act).isSome = true ∧ mv = (w.broker.topic name).messages.length) := by
  cases steps with
  | publish => exact Or.inl (refers.frame rfl rfl (tasks_concat not_false) (same_chans rfl))
  | subscribe => exact Or.inl (refers.frame rfl rfl (tasks_concat not_false) (same_chans rfl))
  | dlq => exact Or.inl (refers.frame rfl rfl (tasks_concat not_false) (same_chans rfl))
  | receive full =>
      refine Or.inl (refers.frame rfl rfl (fun _ member => Or.inl member) ?_)
      intro buf member ref inside
      rcases List.mem_or_eq_of_mem_set member with before | rfl
      · exact ⟨buf, before, inside⟩
      · exact ⟨_, List.mem_of_getElem? full, List.mem_cons_of_mem _ inside⟩
  | create current unlocked =>
      rename_i i err ofTopic call
      have topics := Broker.topic_getOrCreateTopic w.broker ofTopic name
      refine Or.inl (refers.frame (congrArg (fun tp => tp.queue) topics) (congrArg Topic.dlq topics)
        (tasks_set (not_holds_next ofTopic call)) ?_)
      exact chans_getOrCreateTopic w.broker ofTopic
  | append current found =>
      rcases refers_append found refers with before | ⟨isName, isNew⟩
      · exact Or.inl before
      · refine Or.inr ⟨?_, isNew⟩
        simp only [publication, current, isName, if_true]
        rfl
  | countPublished => exact Or.inl (refers.frame rfl rfl (tasks_set not_false) (same_chans rfl))
  | enroll current found =>
      rename_i i err ofTopic group tp
      have queue : ((w.broker.putTopic ofTopic (tp.enroll group)).topic name).queue =
          (w.broker.topic name).queue :=
        Broker.topic_insert_congr (fun tp => tp.queue) found rfl
          fun _ => congrArg Queue.queue (tp.queue_enroll group)
      have dlq : ((w.broker.putTopic ofTopic (tp.enroll group)).topic name).dlq =
          (w.broker.topic name).dlq :=
        Broker.topic_insert_congr Topic.dlq found rfl fun _ => tp.dlq_enroll group
      refine Or.inl (refers.frame queue dlq ?_ (same_chans rfl))
      exact Library.each_concat (tasks_set not_false) (Or.inr not_holds_idle)
  | deliver current found delivers => exact Or.inl (refers_delivered current found delivers refers)
  | panic => exact Or.inl (refers.frame rfl rfl (fun _ member => Or.inl member) (same_chans rfl))
  | readChannel => exact Or.inl (refers.frame rfl rfl (tasks_set not_false) (same_chans rfl))
  | missChannel => exact Or.inl (refers.frame rfl rfl (tasks_set not_false) (same_chans rfl))
  | makeChannel =>
      refine Or.inl (refers.frame rfl rfl (tasks_set not_false) ?_)
      exact chans_makeChannel w.broker _

/-- A handler is called with a message that its subscriber has taken. -/
theorem called_steps {act : Act} {group : String} {pos : Nat} {m : Option Message}
    (steps : Steps w act next) (member : (name, group, .called pos mv m) ∈ next.events) :
    (name, group, .called pos mv m) ∈ w.events ∨
      (w.Refers name mv ∧ m = (w.broker.topic name).messages[mv]?) := by
  cases steps with
  | deliver current found delivers =>
      rcases List.mem_append.mp member with before | isNew
      · exact Or.inl before
      · obtain ⟨event, listed, same⟩ := List.mem_map.mp isNew
        cases same
        obtain rfl := taken_of_called listed
        cases List.mem_singleton.mp listed
        refine Or.inr ⟨.held (List.mem_of_getElem? current) ⟨rfl, rfl⟩, ?_⟩
        rw [Broker.topic_of_lookup found]
        rfl
  | _ => exact Or.inl member

/-- The log grows, by one message for a publication. -/
theorem log_grows {act : Act} (keeps : KeepsHeaders w act) (steps : Steps w act next) :
    (w.log name).2 <+: (next.log name).2 ∧
      ((publication name w act).isSome = true →
        (next.log name).2.length = (w.log name).2.length + 1) := by
  have mirrors : Library.Mirrors (record name) (publication name) (World.log name) w act next :=
    log_steps keeps steps
  rcases mirrors.cases with ⟨unpublished, same⟩ | ⟨p, _, recorded⟩
  · rw [same, unpublished]
    exact ⟨List.prefix_rfl, fun some => by cases some⟩
  · rw [← Option.some.inj recorded]
    exact ⟨List.prefix_append _ _, fun _ => List.length_append⟩

end Steps

/-! ## Runs -/

/-- What is referred to is in the log, and every handler was called with what the log has. -/
structure Faithful (name : String) (w : World) : Prop where
  refers : ∀ mv, w.Refers name mv → mv < (w.log name).2.length
  called : ∀ group pos mv m, (name, group, .called pos mv m) ∈ w.events →
    ∃ msg, m = some msg ∧ (w.log name).2[mv]? = some msg.strip

theorem length_log (name : String) (w : World) :
    (w.log name).2.length = (w.broker.topic name).messages.length :=
  List.length_map _

theorem getElem?_log {name : String} {w : World} {mv : Nat} {msg : Message}
    (found : (w.broker.topic name).messages[mv]? = some msg) :
    (w.log name).2[mv]? = some msg.strip := by
  change ((w.broker.topic name).messages.map Message.strip)[mv]? = _
  rw [List.getElem?_map, found]
  rfl

theorem faithful_start (name : String) (maxRetries : Int64) :
    Faithful name (World.start maxRetries) where
  refers := by
    intro mv refers
    cases refers with
    | queued member => exact absurd member List.not_mem_nil
    | buried member => exact absurd member List.not_mem_nil
    | held member _ => exact absurd member List.not_mem_nil
    | sent member _ => exact absurd member List.not_mem_nil
  called := fun _ _ _ _ member => absurd member List.not_mem_nil

theorem Faithful.exists_message {name : String} {w : World} (faithful : Faithful name w) {mv : Nat}
    (refers : w.Refers name mv) : ∃ msg, (w.broker.topic name).messages[mv]? = some msg := by
  have inside := faithful.refers mv refers
  rw [length_log] at inside
  exact ⟨_, List.getElem?_eq_getElem inside⟩

theorem faithful_steps {name : String} {w next : World} {act : Act} (faithful : Faithful name w)
    (keeps : KeepsHeaders w act) (steps : Steps w act next) : Faithful name next := by
  obtain ⟨grows, longer⟩ : (w.log name).2 <+: (next.log name).2 ∧
      ((publication name w act).isSome = true →
        (next.log name).2.length = (w.log name).2.length + 1) := log_grows keeps steps
  constructor
  · intro mv refers
    rcases refers_steps steps refers with before | ⟨published, isNew⟩
    · exact Nat.lt_of_lt_of_le (faithful.refers mv before) grows.length_le
    · rw [longer published, isNew, length_log]
      exact Nat.lt_succ_self _
  · intro group pos mv m member
    have old : ∃ msg, m = some msg ∧ (w.log name).2[mv]? = some msg.strip := by
      rcases called_steps steps member with before | ⟨refers, isMessage⟩
      · exact faithful.called group pos mv m before
      · obtain ⟨msg, found⟩ := faithful.exists_message refers
        exact ⟨msg, isMessage.trans found, getElem?_log found⟩
    obtain ⟨msg, isMessage, inLog⟩ := old
    obtain ⟨more, whole⟩ := grows
    refine ⟨msg, isMessage, ?_⟩
    rw [← whole, List.getElem?_append_left (List.getElem?_eq_some_iff.mp inLog).1, inLog]

/-- The message of a publication that gets the offset `offset`. -/
def Publication.message (p : Publication) (name : String) (offset : Nat) : Message :=
  ⟨name, offset, p.key, p.value, p.headers⟩

/-- A log has the publications in their order, with the offsets that follow. -/
theorem execute_record (name : String) (n : Nat) (log : List Message) (ps : List Publication) :
    execute (record name) (n, log) ps =
      some (n + ps.length, log ++ ps.mapIdx fun i p => (p.message name (n + i + 1)).strip) := by
  induction ps generalizing n log with
  | nil => simp
  | cons p rest ih =>
      have offsets : (fun (i : Nat) (p : Publication) => (p.message name (n + (i + 1) + 1)).strip) =
          fun i p => (p.message name (n + 1 + i + 1)).strip := by
        funext i p
        rw [Nat.add_assoc n 1 i, Nat.add_comm 1 i]
      rw [Library.execute_cons, record, Option.bind_some, ih, List.mapIdx_cons, offsets,
        List.append_assoc, List.length_cons]
      exact congrArg some (Prod.ext (by omega) rfl)

/-- A message that agrees with the log is the one that was published. -/
theorem carries_of_log {name : String} {ps : List Publication} {mv : Nat} {msg : Message}
    (inLog : (ps.mapIdx fun i p => (p.message name (0 + i + 1)).strip)[mv]? = some msg.strip) :
    ∃ p, ps[mv]? = some p ∧ Carries name mv p msg := by
  rw [List.getElem?_mapIdx] at inLog
  obtain ⟨p, found, same⟩ := Option.map_eq_some_iff.mp inLog
  rw [Nat.zero_add] at same
  refine ⟨p, found, (congrArg Message.topic same).symm, (congrArg Message.offset same).symm,
    (congrArg Message.key same).symm, (congrArg Message.value same).symm, ?_⟩
  intro header other
  have erased : p.headers.erase "retries" = msg.headers.erase "retries" :=
    congrArg Message.headers same
  rw [← AList.lookup_erase_ne other, ← erased, AList.lookup_erase_ne other]

/-- In every run that clears no header but the counter, each delivery of a message, and each
dead letter on the list and in the channels, carries what was published. -/
theorem redelivery_preserves {maxRetries : Int64} {acts : List Act} {w : World}
    (reached : execute World.step (World.start maxRetries) acts = some w)
    (keeps : Guarded World.step KeepsHeaders (World.start maxRetries) acts) (name : String) :
    (∀ group pos mv m, (name, group, .called pos mv m) ∈ w.events →
      ∃ p msg, (inputs World.step (publication name) (World.start maxRetries) acts)[mv]? = some p ∧
        m = some msg ∧ Carries name mv p msg) ∧
    (∀ mv, mv ∈ (w.broker.topic name).dlq ∨ (∃ buf ∈ w.broker.chans, (name, mv) ∈ buf) →
      ∃ p msg, (inputs World.step (publication name) (World.start maxRetries) acts)[mv]? = some p ∧
        (w.broker.topic name).messages[mv]? = some msg ∧ Carries name mv p msg) := by
  have faithful : Faithful name w := Library.invariant_of_guarded World.step (Faithful name)
    (fun _ _ _ held guard taken => faithful_steps held guard (steps_of_step taken))
    (faithful_start name maxRetries) keeps reached
  have mirrored := Library.execute_inputs World.step (record name) (publication name)
    (World.log name) (fun _ _ _ guard taken => log_steps guard (steps_of_step taken)) keeps reached
  have empty : (World.start maxRetries).log name = (0, []) := rfl
  rw [empty, execute_record, List.nil_append] at mirrored
  have isLog := congrArg Prod.snd (Option.some.inj mirrored)
  change _ = (w.log name).2 at isLog
  constructor
  · intro group pos mv m member
    obtain ⟨msg, isMessage, inLog⟩ := faithful.called group pos mv m member
    rw [← isLog] at inLog
    obtain ⟨p, found, carries⟩ := carries_of_log inLog
    exact ⟨p, msg, found, isMessage, carries⟩
  · intro mv dead
    have refers : w.Refers name mv := by
      rcases dead with listed | ⟨buf, member, inside⟩
      · exact .buried listed
      · exact .sent member inside
    obtain ⟨msg, isMessage⟩ := faithful.exists_message refers
    have inLog := getElem?_log isMessage
    rw [← isLog] at inLog
    obtain ⟨p, found, carries⟩ := carries_of_log inLog
    exact ⟨p, msg, found, isMessage, carries⟩

/-- A message on `t` with these headers, and a subscriber that fails through so many steps. -/
def failing (headers : Headers) (steps : Nat) : List Act :=
  [.publish "t" "k" [1] headers, .proceed 0 false, .proceed 0 false, .proceed 0 false,
    .subscribe "t" "g", .proceed 1 false, .proceed 1 false] ++
    List.replicate steps (.proceed 2 true)

/-- A message without headers, from its publication to the list of dead letters. -/
theorem redelivery_preserves_plain :
    ∃ w p msg, execute World.step (World.start 1) (failing ∅ 13) = some w ∧
      (w.broker.topic "t").dlq = [0] ∧ (w.broker.topic "t").messages[0]? = some msg ∧
        (inputs World.step (publication "t") (World.start 1) (failing ∅ 13))[0]? = some p ∧
          Carries "t" 0 p msg := by
  obtain ⟨w, reached, dead⟩ := Library.exists_of_execute_test World.step (World.start 1)
    (failing ∅ 13) (fun w => (w.broker.topic "t").dlq = [0]) (by decide +kernel)
  have keeps : Guarded World.step KeepsHeaders (World.start 1) (failing ∅ 13) :=
    Library.guarded_of_check World.step (by decide +kernel)
  obtain ⟨p, msg, found, isMessage, carries⟩ := (redelivery_preserves reached keeps "t").2 0
    (Or.inl (dead ▸ List.mem_singleton_self 0))
  exact ⟨w, p, msg, reached, dead, isMessage, found, carries⟩

/-- Headers with a trace. -/
def traced : Headers := AList.insert "trace" [49] ∅

/-- The second delivery of a message that failed once has lost its trace. -/
theorem redelivery_loses_headers :
    ∃ w msg, execute World.step (World.start 1) (failing traced 10) = some w ∧
      inputs World.step (publication "t") (World.start 1) (failing traced 10) =
        [⟨"k", [1], traced⟩] ∧
      ("t", "g", .called 1 0 (some msg)) ∈ w.events ∧
        traced.lookup "trace" = some [49] ∧ msg.headers.lookup "trace" = none ∧
          ¬Carries "t" 0 ⟨"k", [1], traced⟩ msg := by
  obtain ⟨w, reached, called⟩ := Library.exists_of_execute_test World.step (World.start 1)
    (failing traced 10)
    (fun w => ("t", "g", .called 1 0
      (some ⟨"t", 1, "k", [1], AList.insert "retries" [49] ∅⟩)) ∈ w.events) (by decide +kernel)
  refine ⟨w, _, reached, by decide +kernel, called, by decide, by decide, ?_⟩
  intro carries
  have same := carries.headers "trace" (by decide)
  revert same
  decide

end MiniCloud.Mq
