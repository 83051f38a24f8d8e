import Mathlib.Data.List.AList
import MiniCloud.Library.Runs
import MiniCloud.Library.Slots

/-!
# The in-memory message broker

`Publish` appends a message to the queue of its topic.  Each consumer group has a
cursor into that queue, and each of its subscribers calls `deliverOnce` in a loop:
take the message at the cursor, call the handler, and count the message as acked, put
it back at the end of the queue with one more retry in its headers, or route it to the
dead-letter queue.  All groups of a topic share the queue and the messages.

A call is a sequence of steps, each a critical section or one access to shared
memory, and a schedule picks at every step the task that goes on.  A handler is known
by its results alone.  Two lists that the program does not have record what happened:
the deliveries with their outcomes, and the channels that `DLQ` has returned.
-/

namespace MiniCloud.Mq

abbrev Bytes := List UInt8

abbrev Headers := AList fun _ : String => Bytes

/-- Headers are compared by their entries, so that the comparison can be evaluated. -/
instance : DecidableEq Headers := fun first second =>
  decidable_of_iff (first.entries = second.entries) AList.ext_iff.symm

/-- A message; its partition is always 0 and its time is never read. -/
structure Message where
  topic : String
  offset : Nat
  key : String
  value : Bytes
  headers : Headers
  deriving DecidableEq

/-! ## The retry counter -/

def isDigit (c : UInt8) : Bool := 48 ≤ c && c ≤ 57

/-- The loop of `deliverOnce` over the header, in 64-bit integers. -/
def parseRetries (v : Bytes) : Int64 :=
  (v.takeWhile isDigit).foldl (fun retries c => retries * 10 + Int64.ofNat (c.toNat - 48)) 0

def retriesOf (headers : Headers) : Int64 :=
  match headers.lookup "retries" with
  | none => 0
  | some v => parseRetries v

/-- The loop of `itoa`, with the room that is left in its buffer; `none` is the panic
of an index below 0. -/
def itoaLoop (i n : Nat) (buf : Bytes) : Option Bytes :=
  if n = 0 then some buf
  else
    match i with
    | 0 => none
    | i + 1 => itoaLoop i (n / 10) (UInt8.ofNat (48 + n % 10) :: buf)

def itoa (n : Int64) : Option Bytes :=
  if n = 0 then some [48] else itoaLoop 16 n.toInt.toNat []

/-! ## The queue of a topic -/

/-- The messages of a topic, and its queue, which refers to them. -/
structure Queue where
  nextOff : Nat
  messages : List Message
  queue : List Nat
  deriving DecidableEq

namespace Queue

def empty : Queue := ⟨0, [], []⟩

/-- A new message, at the end of the queue. -/
def append (q : Queue) (topic key : String) (value : Bytes) (headers : Headers) : Queue where
  nextOff := q.nextOff + 1
  messages := q.messages ++ [⟨topic, q.nextOff + 1, key, value, headers⟩]
  queue := q.queue ++ [q.messages.length]

def headers (q : Queue) (mv : Nat) : Headers :=
  match q.messages[mv]? with
  | none => ∅
  | some m => m.headers

def setHeaders (q : Queue) (mv : Nat) (headers : Headers) : Queue :=
  { q with messages := q.messages.modify mv fun m => { m with headers := headers } }

def requeue (q : Queue) (mv : Nat) : Queue := { q with queue := q.queue ++ [mv] }

end Queue

/-! ## Deliveries -/

/-- How far a subscriber has got in `deliverOnce`; `mv` is its message. -/
inductive Stage where
  | idle
  /-- The cursor is advanced. -/
  | taken (pos mv : Nat)
  /-- `Delivered` is counted, and the handler runs. -/
  | handling (pos mv : Nat)
  | succeeded (mv : Nat)
  | failed (mv : Nat)
  /-- The headers gave a number of retries below the limit. -/
  | clearing (mv : Nat) (retries : Int64)
  | writing (mv : Nat) (retries : Int64)
  | requeueing (mv : Nat)
  | requeued (mv : Nat)
  /-- `toDLQ` is called. -/
  | burying (mv : Nat)
  | buried (mv : Nat)
  | routing (mv : Nat)
  | sending (mv : Nat)
  deriving DecidableEq, Repr

/-- What a delivery of one group works on. -/
structure Lane extends Queue where
  cursor : Nat
  deriving DecidableEq

/-- The next step of `deliverOnce`, where `err` is the result of the handler; `none` is
a panic of `itoa`.  The loop that copies the headers runs over the map just made, so
it is left out. -/
def Lane.deliver (maxRetries : Int64) (err : Bool) (lane : Lane) : Stage → Option (Lane × Stage)
  | .idle =>
      match lane.queue[lane.cursor]? with
      | none => some (lane, .idle)
      | some mv => some ({ lane with cursor := lane.cursor + 1 }, .taken lane.cursor mv)
  | .taken pos mv => some (lane, .handling pos mv)
  | .handling _ mv => some (lane, if err then .failed mv else .succeeded mv)
  | .succeeded _ => some (lane, .idle)
  | .failed mv =>
      let retries := retriesOf (lane.headers mv)
      some (lane, if maxRetries ≤ retries then .burying mv else .clearing mv retries)
  | .clearing mv retries =>
      some ({ lane with toQueue := lane.setHeaders mv ∅ }, .writing mv retries)
  | .writing mv retries =>
      (itoa (retries + 1)).map fun v =>
        ({ lane with toQueue := lane.setHeaders mv ((lane.headers mv).insert "retries" v) },
          .requeueing mv)
  | .requeueing mv => some ({ lane with toQueue := lane.requeue mv }, .requeued mv)
  | .requeued _ => some (lane, .idle)
  | .burying mv => some (lane, .buried mv)
  | .buried mv => some (lane, .routing mv)
  | .routing mv => some (lane, .sending mv)
  | .sending _ => some (lane, .idle)

/-- What is recorded of a delivery. -/
inductive Event where
  | called (pos mv : Nat) (m : Option Message)
  | returned (mv : Nat) (err : Bool)
  | acked (mv : Nat)
  | retried (mv : Nat)
  | dead (mv : Nat)
  deriving DecidableEq

def Lane.events (err : Bool) (lane : Lane) : Stage → List Event
  | .taken pos mv => [.called pos mv lane.messages[mv]?]
  | .handling _ mv => [.returned mv err]
  | .succeeded mv => [.acked mv]
  | .requeueing mv => [.retried mv]
  | .burying mv => [.dead mv]
  | _ => []

/-- The handler is called for the message that was taken. -/
theorem taken_of_called {err : Bool} {lane : Lane} {stage : Stage} {pos mv : Nat}
    {m : Option Message} (member : .called pos mv m ∈ lane.events err stage) :
    stage = .taken pos mv := by
  cases stage with
  | taken at_ ref =>
      cases List.mem_singleton.mp member
      rfl
  | _ => simp [Lane.events] at member

/-! ## Topics and the broker -/

structure Topic extends Queue where
  /-- The cursors of the groups. -/
  groups : AList fun _ : String => Nat
  dlq : List Nat
  deriving DecidableEq

namespace Topic

def empty : Topic := ⟨Queue.empty, ∅, []⟩

/-- The critical section of `Publish`. -/
def append (tp : Topic) (name key : String) (value : Bytes) (headers : Headers) : Topic :=
  { tp with toQueue := tp.toQueue.append name key value headers }

def cursor (tp : Topic) (group : String) : Nat := (tp.groups.lookup group).getD 0

def lane (tp : Topic) (group : String) : Lane := ⟨tp.toQueue, tp.cursor group⟩

/-- The critical section of `Subscribe`. -/
def enroll (tp : Topic) (group : String) : Topic :=
  match tp.groups.lookup group with
  | some _ => tp
  | none => { tp with groups := tp.groups.insert group 0 }

/-- The topic after a step of a delivery. -/
def putLane (tp : Topic) (group : String) (lane : Lane) (stage : Stage) : Topic where
  toQueue := lane.toQueue
  groups := tp.groups.insert group lane.cursor
  dlq :=
    match stage with
    | .burying mv => tp.dlq ++ [mv]
    | _ => tp.dlq

end Topic

/-- The counters; `Nacked` is never counted. -/
structure Stats where
  published : Nat
  delivered : Nat
  acked : Nat
  retried : Nat
  dead : Nat
  deriving DecidableEq, Repr

/-- The counter that a step of a delivery bumps. -/
def Stats.count (stage : Stage) (st : Stats) : Stats :=
  match stage with
  | .taken _ _ => { st with delivered := st.delivered + 1 }
  | .succeeded _ => { st with acked := st.acked + 1 }
  | .requeued _ => { st with retried := st.retried + 1 }
  | .buried _ => { st with dead := st.dead + 1 }
  | _ => st

def Stats.countPublished (st : Stats) : Stats := { st with published := st.published + 1 }

/-- A message of a topic. -/
abbrev Ref := String × Nat

structure Broker where
  maxRetries : Int64
  t : AList fun _ : String => Topic
  /-- The table of channels; a channel is its place in `chans`. -/
  dlq : AList fun _ : String => Nat
  /-- The buffers of the channels. -/
  chans : List (List Ref)
  st : Stats
  panicked : Bool
  deriving DecidableEq

/-- The capacity of a channel. -/
def chanCap : Nat := 1024

namespace Broker

/-- `Open`. -/
def opened (maxRetries : Int64) : Broker where
  maxRetries := if maxRetries = 0 then 5 else maxRetries
  t := ∅
  dlq := ∅
  chans := []
  st := ⟨0, 0, 0, 0, 0⟩
  panicked := false

/-- The topic of a name, which is empty as long as it does not exist. -/
def topic (b : Broker) (name : String) : Topic := (b.t.lookup name).getD Topic.empty

def putTopic (b : Broker) (name : String) (tp : Topic) : Broker :=
  { b with t := b.t.insert name tp }

def bump (b : Broker) (fn : Stats → Stats) : Broker := { b with st := fn b.st }

/-- Make a channel and store it in the table. -/
def makeChannel (b : Broker) (name : String) : Broker :=
  { b with dlq := b.dlq.insert name b.chans.length, chans := b.chans ++ [[]] }

def getOrCreateTopic (b : Broker) (name : String) : Broker :=
  match b.t.lookup name with
  | some _ => b
  | none => (b.putTopic name Topic.empty).makeChannel name

/-- The `select` at the end of `toDLQ`. -/
def send (chans : List (List Ref)) (ch : Option Nat) (ref : Ref) : List (List Ref) :=
  match ch with
  | none => chans
  | some c => chans.modify c fun buf => if buf.length < chanCap then buf ++ [ref] else buf

/-- The broker after a step of a delivery. -/
def putLane (b : Broker) (name group : String) (tp : Topic) (lane : Lane) (stage : Stage)
    (ch : Option Nat) : Broker :=
  { b with
    t := b.t.insert name (tp.putLane group lane stage)
    st := b.st.count stage
    chans :=
      match stage with
      | .sending mv => send b.chans ch (name, mv)
      | _ => b.chans }

theorem topic_of_lookup {b : Broker} {name : String} {tp : Topic}
    (found : b.t.lookup name = some tp) : b.topic name = tp := by
  rw [topic, found]
  rfl

theorem topic_insert_self {b b' : Broker} {name : String} {tp : Topic}
    (changed : b'.t = b.t.insert name tp) : b'.topic name = tp := by
  rw [topic, changed, AList.lookup_insert]
  rfl

theorem topic_insert_ne {b b' : Broker} {name other : String} {tp : Topic}
    (changed : b'.t = b.t.insert name tp) (different : other ≠ name) :
    b'.topic other = b.topic other := by
  rw [topic, changed, AList.lookup_insert_ne different]
  rfl

/-- What a change of one topic means for a part of another. -/
theorem topic_insert_congr {Part : Type*} (part : Topic → Part) {b b' : Broker}
    {name other : String} {tp tp' : Topic} (found : b.t.lookup name = some tp)
    (changed : b'.t = b.t.insert name tp') (same : name = other → part tp' = part tp) :
    part (b'.topic other) = part (b.topic other) := by
  by_cases isOther : name = other
  · subst isOther
    rw [topic_insert_self changed, topic_of_lookup found]
    exact same rfl
  · rw [topic_insert_ne changed (Ne.symm isOther)]

@[simp]
theorem topic_getOrCreateTopic (b : Broker) (name other : String) :
    (b.getOrCreateTopic name).topic other = b.topic other := by
  unfold getOrCreateTopic
  cases found : b.t.lookup name with
  | some tp => rfl
  | none =>
      change ((b.putTopic name Topic.empty).makeChannel name).topic other = b.topic other
      by_cases same : other = name
      · subst same
        have created : ((b.putTopic other Topic.empty).makeChannel other).topic other =
          Topic.empty := topic_insert_self rfl
        rw [created, topic, found]
        rfl
      · exact topic_insert_ne rfl same

end Broker

namespace Topic

@[simp]
theorem queue_enroll (tp : Topic) (group : String) : (tp.enroll group).toQueue = tp.toQueue := by
  unfold enroll
  cases tp.groups.lookup group with
  | some c => rfl
  | none => rfl

theorem dlq_enroll (tp : Topic) (group : String) : (tp.enroll group).dlq = tp.dlq := by
  unfold enroll
  cases tp.groups.lookup group with
  | some c => rfl
  | none => rfl

/-- A new group starts at the beginning of the queue. -/
@[simp]
theorem cursor_enroll (tp : Topic) (group other : String) :
    (tp.enroll group).cursor other = tp.cursor other := by
  unfold enroll
  cases found : tp.groups.lookup group with
  | some c => rfl
  | none =>
      by_cases same : other = group
      · subst same
        simp only [cursor, found, AList.lookup_insert]
        rfl
      · simp only [cursor, AList.lookup_insert_ne same]

theorem cursor_putLane_self (tp : Topic) (group : String) (lane : Lane) (stage : Stage) :
    (tp.putLane group lane stage).cursor group = lane.cursor := by
  simp only [putLane, cursor, AList.lookup_insert]
  rfl

theorem cursor_putLane_ne (tp : Topic) {group other : String} (lane : Lane) (stage : Stage)
    (different : other ≠ group) :
    (tp.putLane group lane stage).cursor other = tp.cursor other := by
  simp only [putLane, cursor, AList.lookup_insert_ne different]

theorem lane_putLane_self (tp : Topic) (group : String) (lane : Lane) (stage : Stage) :
    (tp.putLane group lane stage).lane group = lane := by
  unfold Topic.lane
  rw [cursor_putLane_self]
  rfl

end Topic

/-! ## Tasks and schedules -/

/-- What is left of a call after `getOrCreateTopic`. -/
inductive Call where
  | publish (key : String) (value : Bytes) (headers : Headers)
  | subscribe (group : String)
  deriving DecidableEq

inductive Task where
  /-- About to call `getOrCreateTopic`. -/
  | create (name : String) (call : Call)
  | append (name key : String) (value : Bytes) (headers : Headers)
  | countPublished
  | enroll (name group : String)
  /-- The goroutine of a subscriber; `ch` is what `toDLQ` has read last. -/
  | subscriber (name group : String) (stage : Stage) (ch : Option Nat)
  | readChannel (name : String)
  /-- `DLQ` has found no channel; it holds the read lock. -/
  | makeChannel (name : String)
  | done
  deriving DecidableEq

def Call.next (name : String) : Call → Task
  | .publish key value headers => .append name key value headers
  | .subscribe group => .enroll name group

def Task.holdsLock : Task → Bool
  | .makeChannel _ => true
  | _ => false

inductive Act where
  | publish (topic key : String) (value : Bytes) (headers : Headers)
  | subscribe (topic group : String)
  | dlq (topic : String)
  /-- The next step of a task; `err` is the result of a handler that returns. -/
  | proceed (i : Nat) (err : Bool)
  /-- The reader of a channel receives. -/
  | receive (c : Nat)
  deriving DecidableEq

structure World where
  broker : Broker
  tasks : List Task
  events : List (String × String × Event)
  /-- The channels that `DLQ` has returned, with the topics. -/
  handed : List (String × Nat)
  deriving DecidableEq

namespace World

def start (maxRetries : Int64) : World := ⟨Broker.opened maxRetries, [], [], []⟩

/-- The task `i` goes on as `task`. -/
def move (w : World) (i : Nat) (b : Broker) (task : Task) : World :=
  { w with broker := b, tasks := w.tasks.set i task }

/-- A new call or goroutine. -/
def spawn (w : World) (task : Task) : World := { w with tasks := w.tasks ++ [task] }

/-- `DLQ` returns a channel. -/
def hand (w : World) (name : String) (c : Nat) : World :=
  { w with handed := w.handed ++ [(name, c)] }

/-- The variable `ch` of `toDLQ` after a step. -/
def channelAfter (w : World) (name : String) (stage : Stage) (ch : Option Nat) : Option Nat :=
  match stage with
  | .routing _ => w.broker.dlq.lookup name
  | _ => ch

/-- A subscriber has taken a step to the stage `next`. -/
def delivered (w : World) (i : Nat) (err : Bool) (name group : String) (stage : Stage)
    (ch : Option Nat) (tp : Topic) (lane : Lane) (next : Stage) : World where
  broker := w.broker.putLane name group tp lane stage ch
  tasks := w.tasks.set i (.subscriber name group next (w.channelAfter name stage ch))
  events := w.events ++ ((tp.lane group).events err stage).map fun event => (name, group, event)
  handed := w.handed

/-- The step of a subscriber. -/
def deliver (w : World) (i : Nat) (err : Bool) (name group : String) (stage : Stage)
    (ch : Option Nat) (tp : Topic) : World :=
  match (tp.lane group).deliver w.broker.maxRetries err stage with
  | none => { w with broker := { w.broker with panicked := true } }
  | some (lane, next) => w.delivered i err name group stage ch tp lane next

def proceed (w : World) (i : Nat) (err : Bool) : Task → Option World
  | .create name call =>
      if w.tasks.any Task.holdsLock then none
      else some (w.move i (w.broker.getOrCreateTopic name) (call.next name))
  | .append name key value headers =>
      (w.broker.t.lookup name).map fun tp =>
        w.move i (w.broker.putTopic name (tp.append name key value headers)) .countPublished
  | .countPublished => some (w.move i (w.broker.bump Stats.countPublished) .done)
  | .enroll name group =>
      (w.broker.t.lookup name).map fun tp =>
        (w.move i (w.broker.putTopic name (tp.enroll group)) .done).spawn
          (.subscriber name group .idle none)
  | .subscriber name group stage ch =>
      (w.broker.t.lookup name).map (w.deliver i err name group stage ch)
  | .readChannel name =>
      match w.broker.dlq.lookup name with
      | some c => some ((w.move i w.broker .done).hand name c)
      | none => some (w.move i w.broker (.makeChannel name))
  | .makeChannel name =>
      some ((w.move i (w.broker.makeChannel name) .done).hand name w.broker.chans.length)
  | .done => none

def step (w : World) (act : Act) : Option World :=
  if w.broker.panicked then none
  else
    match act with
    | .publish topic key value headers =>
        some (w.spawn (.create topic (.publish key value headers)))
    | .subscribe topic group => some (w.spawn (.create topic (.subscribe group)))
    | .dlq topic => some (w.spawn (.readChannel topic))
    | .proceed i err => (w.tasks[i]?).bind (w.proceed i err)
    | .receive c =>
        match w.broker.chans[c]? with
        | some (_ :: rest) =>
            some { w with broker := { w.broker with chans := w.broker.chans.set c rest } }
        | _ => none

end World

/-! ## What a step can do -/

/-- The steps of a delivery, one constructor for each. -/
inductive Delivers (maxRetries : Int64) (lane : Lane) : Bool → Stage → Lane → Stage → Prop where
  | wait {err : Bool} (atEnd : lane.queue[lane.cursor]? = none) :
      Delivers maxRetries lane err .idle lane .idle
  | take {err : Bool} {mv : Nat} (found : lane.queue[lane.cursor]? = some mv) :
      Delivers maxRetries lane err .idle { lane with cursor := lane.cursor + 1 }
        (.taken lane.cursor mv)
  | call {err : Bool} (pos mv : Nat) :
      Delivers maxRetries lane err (.taken pos mv) lane (.handling pos mv)
  | succeed (pos mv : Nat) :
      Delivers maxRetries lane false (.handling pos mv) lane (.succeeded mv)
  | fail (pos mv : Nat) : Delivers maxRetries lane true (.handling pos mv) lane (.failed mv)
  | ack {err : Bool} (mv : Nat) : Delivers maxRetries lane err (.succeeded mv) lane .idle
  | giveUp {err : Bool} {mv : Nat} (limit : maxRetries ≤ retriesOf (lane.headers mv)) :
      Delivers maxRetries lane err (.failed mv) lane (.burying mv)
  | retry {err : Bool} {mv : Nat} (below : ¬ maxRetries ≤ retriesOf (lane.headers mv)) :
      Delivers maxRetries lane err (.failed mv) lane (.clearing mv (retriesOf (lane.headers mv)))
  | clear {err : Bool} (mv : Nat) (retries : Int64) :
      Delivers maxRetries lane err (.clearing mv retries)
        { lane with toQueue := lane.setHeaders mv ∅ } (.writing mv retries)
  | write {err : Bool} {mv : Nat} {retries : Int64} {v : Bytes} (text : itoa (retries + 1) = some v) :
      Delivers maxRetries lane err (.writing mv retries)
        { lane with toQueue := lane.setHeaders mv ((lane.headers mv).insert "retries" v) }
        (.requeueing mv)
  | requeue {err : Bool} (mv : Nat) :
      Delivers maxRetries lane err (.requeueing mv) { lane with toQueue := lane.requeue mv }
        (.requeued mv)
  | countRetried {err : Bool} (mv : Nat) : Delivers maxRetries lane err (.requeued mv) lane .idle
  | bury {err : Bool} (mv : Nat) : Delivers maxRetries lane err (.burying mv) lane (.buried mv)
  | countDead {err : Bool} (mv : Nat) :
      Delivers maxRetries lane err (.buried mv) lane (.routing mv)
  | route {err : Bool} (mv : Nat) : Delivers maxRetries lane err (.routing mv) lane (.sending mv)
  | send {err : Bool} (mv : Nat) : Delivers maxRetries lane err (.sending mv) lane .idle

theorem delivers_of_deliver {maxRetries : Int64} {err : Bool} {lane lane' : Lane}
    {stage next : Stage} (stepped : lane.deliver maxRetries err stage = some (lane', next)) :
    Delivers maxRetries lane err stage lane' next := by
  cases stage with
  | idle =>
      simp only [Lane.deliver] at stepped
      cases found : lane.queue[lane.cursor]? with
      | none =>
          simp only [found] at stepped
          cases stepped
          exact .wait found
      | some mv =>
          simp only [found] at stepped
          cases stepped
          exact .take found
  | taken pos mv =>
      cases stepped
      exact .call pos mv
  | handling pos mv =>
      cases err with
      | false =>
          cases stepped
          exact .succeed pos mv
      | true =>
          cases stepped
          exact .fail pos mv
  | succeeded mv =>
      cases stepped
      exact .ack mv
  | failed mv =>
      simp only [Lane.deliver] at stepped
      by_cases limit : maxRetries ≤ retriesOf (lane.headers mv)
      · rw [if_pos limit] at stepped
        cases stepped
        exact .giveUp limit
      · rw [if_neg limit] at stepped
        cases stepped
        exact .retry limit
  | clearing mv retries =>
      cases stepped
      exact .clear mv retries
  | writing mv retries =>
      obtain ⟨v, text, same⟩ := Option.map_eq_some_iff.mp stepped
      cases same
      exact .write text
  | requeueing mv =>
      cases stepped
      exact .requeue mv
  | requeued mv =>
      cases stepped
      exact .countRetried mv
  | burying mv =>
      cases stepped
      exact .bury mv
  | buried mv =>
      cases stepped
      exact .countDead mv
  | routing mv =>
      cases stepped
      exact .route mv
  | sending mv =>
      cases stepped
      exact .send mv

theorem deliver_of_delivers {maxRetries : Int64} {err : Bool} {lane lane' : Lane}
    {stage next : Stage} (delivers : Delivers maxRetries lane err stage lane' next) :
    lane.deliver maxRetries err stage = some (lane', next) := by
  cases delivers with
  | wait atEnd => simp only [Lane.deliver, atEnd]
  | take found => simp only [Lane.deliver, found]
  | giveUp limit => simp only [Lane.deliver, if_pos limit]
  | retry below => simp only [Lane.deliver, if_neg below]
  | write text => simp only [Lane.deliver, text, Option.map_some]
  | _ => rfl

/-- The steps, one constructor for each. -/
inductive Steps (w : World) : Act → World → Prop where
  | publish (topic key : String) (value : Bytes) (headers : Headers) :
      Steps w (.publish topic key value headers)
        (w.spawn (.create topic (.publish key value headers)))
  | subscribe (topic group : String) :
      Steps w (.subscribe topic group) (w.spawn (.create topic (.subscribe group)))
  | dlq (topic : String) : Steps w (.dlq topic) (w.spawn (.readChannel topic))
  | receive {c : Nat} {ref : Ref} {rest : List Ref} (full : w.broker.chans[c]? = some (ref :: rest)) :
      Steps w (.receive c)
        { w with broker := { w.broker with chans := w.broker.chans.set c rest } }
  | create {i : Nat} {err : Bool} {name : String} {call : Call}
      (current : w.tasks[i]? = some (.create name call))
      (unlocked : ∀ task ∈ w.tasks, task.holdsLock = false) :
      Steps w (.proceed i err) (w.move i (w.broker.getOrCreateTopic name) (call.next name))
  | append {i : Nat} {err : Bool} {name key : String} {value : Bytes} {headers : Headers}
      {tp : Topic} (current : w.tasks[i]? = some (.append name key value headers))
      (found : w.broker.t.lookup name = some tp) :
      Steps w (.proceed i err)
        (w.move i (w.broker.putTopic name (tp.append name key value headers)) .countPublished)
  | countPublished {i : Nat} {err : Bool} (current : w.tasks[i]? = some .countPublished) :
      Steps w (.proceed i err) (w.move i (w.broker.bump Stats.countPublished) .done)
  | enroll {i : Nat} {err : Bool} {name group : String} {tp : Topic}
      (current : w.tasks[i]? = some (.enroll name group))
      (found : w.broker.t.lookup name = some tp) :
      Steps w (.proceed i err)
        ((w.move i (w.broker.putTopic name (tp.enroll group)) .done).spawn
          (.subscriber name group .idle none))
  | deliver {i : Nat} {err : Bool} {name group : String} {stage next : Stage} {ch : Option Nat}
      {tp : Topic} {lane : Lane} (current : w.tasks[i]? = some (.subscriber name group stage ch))
      (found : w.broker.t.lookup name = some tp)
      (delivers : Delivers w.broker.maxRetries (tp.lane group) err stage lane next) :
      Steps w (.proceed i err) (w.delivered i err name group stage ch tp lane next)
  | panic {i : Nat} {err : Bool} {name group : String} {stage : Stage} {ch : Option Nat}
      {tp : Topic} (current : w.tasks[i]? = some (.subscriber name group stage ch))
      (found : w.broker.t.lookup name = some tp)
      (panicked : (tp.lane group).deliver w.broker.maxRetries err stage = none) :
      Steps w (.proceed i err) { w with broker := { w.broker with panicked := true } }
  | readChannel {i c : Nat} {err : Bool} {name : String}
      (current : w.tasks[i]? = some (.readChannel name))
      (found : w.broker.dlq.lookup name = some c) :
      Steps w (.proceed i err) ((w.move i w.broker .done).hand name c)
  | missChannel {i : Nat} {err : Bool} {name : String}
      (current : w.tasks[i]? = some (.readChannel name))
      (missing : w.broker.dlq.lookup name = none) :
      Steps w (.proceed i err) (w.move i w.broker (.makeChannel name))
  | makeChannel {i : Nat} {err : Bool} {name : String}
      (current : w.tasks[i]? = some (.makeChannel name)) :
      Steps w (.proceed i err)
        ((w.move i (w.broker.makeChannel name) .done).hand name w.broker.chans.length)

theorem steps_of_proceed {w next : World} {i : Nat} {err : Bool} {task : Task}
    (current : w.tasks[i]? = some task) (stepped : w.proceed i err task = some next) :
    Steps w (.proceed i err) next := by
  cases task with
  | create name call =>
      simp only [World.proceed] at stepped
      split at stepped
      · cases stepped
      · rename_i unlocked
        cases stepped
        exact .create current (by simpa using unlocked)
  | append name key value headers =>
      obtain ⟨tp, found, rfl⟩ := Option.map_eq_some_iff.mp stepped
      exact .append current found
  | countPublished =>
      cases stepped
      exact .countPublished current
  | enroll name group =>
      obtain ⟨tp, found, rfl⟩ := Option.map_eq_some_iff.mp stepped
      exact .enroll current found
  | subscriber name group stage ch =>
      obtain ⟨tp, found, rfl⟩ := Option.map_eq_some_iff.mp stepped
      unfold World.deliver
      cases delivered : (tp.lane group).deliver w.broker.maxRetries err stage with
      | none => exact .panic current found delivered
      | some result => exact .deliver current found (delivers_of_deliver delivered)
  | readChannel name =>
      simp only [World.proceed] at stepped
      cases found : w.broker.dlq.lookup name with
      | some c =>
          simp only [found] at stepped
          cases stepped
          exact .readChannel current found
      | none =>
          simp only [found] at stepped
          cases stepped
          exact .missChannel current found
  | makeChannel name =>
      cases stepped
      exact .makeChannel current
  | done => cases stepped

theorem steps_of_step {w next : World} {act : Act} (stepped : w.step act = some next) :
    Steps w act next := by
  unfold World.step at stepped
  split at stepped
  · cases stepped
  · cases act with
    | publish topic key value headers =>
        cases stepped
        exact .publish topic key value headers
    | subscribe topic group =>
        cases stepped
        exact .subscribe topic group
    | dlq topic =>
        cases stepped
        exact .dlq topic
    | proceed i err =>
        obtain ⟨task, current, proceeded⟩ := Option.bind_eq_some_iff.mp stepped
        exact steps_of_proceed current proceeded
    | receive c =>
        simp only at stepped
        split at stepped
        · rename_i full
          cases stepped
          exact .receive full
        · cases stepped

/-- A property kept by every step holds in every state that a run reaches. -/
theorem invariant_of_steps (Inv : World → Prop)
    (preserved : ∀ w act next, Inv w → Steps w act next → Inv next)
    {w last : World} {acts : List Act} (holds : Inv w)
    (reached : Library.execute World.step w acts = some last) : Inv last :=
  Library.invariant_of_execute World.step Inv
    (fun w act next held stepped => preserved w act next held (steps_of_step stepped))
    holds reached

end MiniCloud.Mq
