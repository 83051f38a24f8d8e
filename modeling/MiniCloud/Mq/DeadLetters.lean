import MiniCloud.Mq.Broker

/-!
# Dead letters and their readers

The table of dead-letter channels is written in two places: by `getOrCreateTopic`, for
every new topic, and by `DLQ`, which finds no channel and holds only the read lock
until it has stored one.  Neither looks at what it overwrites.  As long as no entry is
overwritten, the channel that `toDLQ` reads is the one that `DLQ` has returned.
-/

namespace MiniCloud.Mq

open MiniCloud.Library (execute Guarded)

/-- The name under which a step stores a new channel. -/
def World.stores (w : World) : Act → Option String
  | .proceed i _ =>
      match w.tasks[i]? with
      | some (.create name _) => if w.broker.t.lookup name = none then some name else none
      | some (.makeChannel name) => some name
      | _ => none
  | _ => none

/-- The step overwrites no entry of the table. -/
def KeepsChannels (w : World) (act : Act) : Prop :=
  ∀ name ∈ w.stores act, w.broker.dlq.lookup name = none

instance (w : World) (act : Act) : Decidable (KeepsChannels w act) :=
  inferInstanceAs (Decidable (∀ name ∈ w.stores act, w.broker.dlq.lookup name = none))

/-- The task has read the channel that the table has for its topic. -/
def Task.Reads (b : Broker) : Task → Prop
  | .subscriber name _ (.sending _) ch => ∃ c, ch = some c ∧ b.dlq.lookup name = some c
  | _ => True

/-- Every topic has a channel, and whoever holds a channel of a topic holds the one in
the table. -/
structure Wired (w : World) : Prop where
  ofTopic : ∀ name, name ∈ w.broker.t → name ∈ w.broker.dlq
  valid : ∀ name c, w.broker.dlq.lookup name = some c → c < w.broker.chans.length
  handed : ∀ name c, (name, c) ∈ w.handed → w.broker.dlq.lookup name = some c
  reads : ∀ task ∈ w.tasks, task.Reads w.broker

theorem wired_start (maxRetries : Int64) : Wired (World.start maxRetries) where
  ofTopic := fun _ member => absurd member (AList.notMem_empty _)
  valid := fun _ _ found => by cases found
  handed := fun _ _ member => absurd member List.not_mem_nil
  reads := fun _ member => absurd member List.not_mem_nil

/-- The entries of one table are entries of the other. -/
def Extends (b b' : Broker) : Prop :=
  ∀ name c, b.dlq.lookup name = some c → b'.dlq.lookup name = some c

theorem Task.Reads.mono {b b' : Broker} {task : Task} (reads : task.Reads b)
    (extends_ : Extends b b') : task.Reads b' := by
  cases task with
  | subscriber name group stage ch =>
      cases stage with
      | sending mv =>
          obtain ⟨c, isCh, found⟩ := reads
          exact ⟨c, isCh, extends_ name c found⟩
      | _ => trivial
  | _ => trivial

section Wired

variable {w : World}

/-- The table and the topics stay, and the channels keep their places. -/
theorem Wired.keep (wired : Wired w) {next : World}
    (topics : ∀ name, name ∈ next.broker.t → name ∈ w.broker.t)
    (table : next.broker.dlq = w.broker.dlq)
    (chans : next.broker.chans.length = w.broker.chans.length)
    (handed : ∀ name c, (name, c) ∈ next.handed →
      (name, c) ∈ w.handed ∨ w.broker.dlq.lookup name = some c)
    (tasks : ∀ task ∈ next.tasks, task ∈ w.tasks ∨ task.Reads next.broker) : Wired next where
  ofTopic := by
    intro name member
    rw [table]
    exact wired.ofTopic name (topics name member)
  valid := by
    rw [table, chans]
    exact wired.valid
  handed := by
    intro name c member
    rw [table]
    rcases handed name c member with before | found
    · exact wired.handed name c before
    · exact found
  reads := by
    intro task member
    rcases tasks task member with before | reads
    · exact (wired.reads task before).mono fun name c found => by rw [table]; exact found
    · exact reads

/-- A new channel is stored under a name that had none. -/
theorem Wired.makeChannel (wired : Wired w) {name : String} {next : World}
    (fresh : w.broker.dlq.lookup name = none)
    (topics : ∀ other, other ∈ next.broker.t → other ∈ w.broker.t ∨ other = name)
    (table : next.broker.dlq = w.broker.dlq.insert name w.broker.chans.length)
    (chans : next.broker.chans = w.broker.chans ++ [[]])
    (handed : ∀ other c, (other, c) ∈ next.handed →
      (other, c) ∈ w.handed ∨ (other = name ∧ c = w.broker.chans.length))
    (tasks : ∀ task ∈ next.tasks, task ∈ w.tasks ∨ task.Reads next.broker) : Wired next := by
  have extends_ : Extends w.broker next.broker := by
    intro other c found
    have different : other ≠ name := by
      rintro rfl
      rw [fresh] at found
      cases found
    rw [table, AList.lookup_insert_ne different]
    exact found
  constructor
  · intro other member
    rw [table, AList.mem_insert]
    rcases topics other member with before | same
    · exact Or.inr (wired.ofTopic other before)
    · exact Or.inl same
  · intro other c found
    rw [chans, List.length_append, List.length_singleton]
    rw [table] at found
    by_cases same : other = name
    · rw [same, AList.lookup_insert] at found
      cases found
      exact Nat.lt_succ_self _
    · rw [AList.lookup_insert_ne same] at found
      exact Nat.lt_succ_of_lt (wired.valid other c found)
  · intro other c member
    rcases handed other c member with before | ⟨rfl, rfl⟩
    · exact extends_ other c (wired.handed other c before)
    · rw [table, AList.lookup_insert]
  · intro task member
    rcases tasks task member with before | reads
    · exact (wired.reads task before).mono extends_
    · exact reads

theorem mem_of_lookup {b : Broker} {name : String} {tp : Topic}
    (found : b.t.lookup name = some tp) : name ∈ b.t := by
  rw [← AList.lookup_isSome, found]
  rfl

/-- Overwriting an existing topic adds none. -/
theorem mem_insert_topic {b : Broker} {name other : String} {tp tp' : Topic}
    (found : b.t.lookup name = some tp) (member : other ∈ b.t.insert name tp') : other ∈ b.t := by
  rcases (AList.mem_insert b.t).mp member with rfl | before
  · exact mem_of_lookup found
  · exact before

theorem length_chans_putLane (b : Broker) (name group : String) (tp : Topic) (lane : Lane)
    (stage : Stage) (ch : Option Nat) :
    (b.putLane name group tp lane stage ch).chans.length = b.chans.length := by
  cases stage with
  | sending mv =>
      cases ch with
      | none => rfl
      | some c => exact List.length_modify _ _ _
  | _ => rfl

/-- A subscriber reads the table right before it sends. -/
theorem reads_delivered (wired : Wired w) {err : Bool} {name group : String}
    {stage after : Stage} {ch : Option Nat} {tp : Topic} {lane : Lane}
    (found : w.broker.t.lookup name = some tp)
    (delivers : Delivers w.broker.maxRetries (tp.lane group) err stage lane after) :
    (Task.subscriber name group after (w.channelAfter name stage ch)).Reads w.broker := by
  cases delivers with
  | route mv =>
      have present := wired.ofTopic name (mem_of_lookup found)
      obtain ⟨c, isC⟩ := Option.isSome_iff_exists.mp (AList.lookup_isSome.mpr present)
      exact ⟨c, isC, isC⟩
  | _ => trivial

theorem wired_create (wired : Wired w) {i : Nat} {name : String} {call : Call} {err : Bool}
    (current : w.tasks[i]? = some (.create name call)) (keeps : KeepsChannels w (.proceed i err)) :
    Wired (w.move i (w.broker.getOrCreateTopic name) (call.next name)) := by
  have reads (b : Broker) : (call.next name).Reads b := by
    cases call with
    | publish key value headers => trivial
    | subscribe group => trivial
  have tasks (b : Broker) : ∀ task ∈ w.tasks.set i (call.next name),
      task ∈ w.tasks ∨ task.Reads b :=
    Library.each_set (fun _ member => Or.inl member) (Or.inr (reads b))
  unfold Broker.getOrCreateTopic
  cases found : w.broker.t.lookup name with
  | some tp =>
      exact wired.keep (fun _ member => member) rfl rfl (fun _ _ member => Or.inl member)
        (tasks w.broker)
  | none =>
      have stores : w.stores (.proceed i err) = some name := by
        simp only [World.stores, current, found, if_true]
      refine wired.makeChannel (keeps name stores) ?_ rfl rfl
        (fun _ _ member => Or.inl member) (tasks _)
      intro other member
      exact ((AList.mem_insert w.broker.t).mp member).symm

theorem wired_steps {next : World} {act : Act} (wired : Wired w) (keeps : KeepsChannels w act)
    (steps : Steps w act next) : Wired next := by
  have spawned {task : Task} (reads : task.Reads w.broker) : Wired (w.spawn task) :=
    wired.keep (fun _ member => member) rfl rfl (fun _ _ member => Or.inl member)
      (Library.each_concat (fun _ member => Or.inl member) (Or.inr reads))
  cases steps with
  | publish topic key value headers => exact spawned trivial
  | subscribe topic group => exact spawned trivial
  | dlq topic => exact spawned trivial
  | receive full =>
      exact wired.keep (fun _ member => member) rfl List.length_set
        (fun _ _ member => Or.inl member) (fun _ member => Or.inl member)
  | create current unlocked => exact wired_create wired current keeps
  | append current found =>
      exact wired.keep (fun _ => mem_insert_topic found) rfl rfl (fun _ _ member => Or.inl member)
        (Library.each_set (fun _ member => Or.inl member) (Or.inr trivial))
  | countPublished current =>
      exact wired.keep (fun _ member => member) rfl rfl (fun _ _ member => Or.inl member)
        (Library.each_set (fun _ member => Or.inl member) (Or.inr trivial))
  | enroll current found =>
      refine wired.keep (fun _ => mem_insert_topic found) rfl rfl
        (fun _ _ member => Or.inl member) ?_
      exact Library.each_concat
        (Library.each_set (fun _ member => Or.inl member) (Or.inr trivial)) (Or.inr trivial)
  | deliver current found delivers =>
      exact wired.keep (fun _ => mem_insert_topic found) rfl (length_chans_putLane _ _ _ _ _ _ _)
        (fun _ _ member => Or.inl member)
        (Library.each_set (fun _ member => Or.inl member)
          (Or.inr (reads_delivered wired found delivers)))
  | panic current found panicked =>
      exact wired.keep (fun _ member => member) rfl rfl (fun _ _ member => Or.inl member)
        (fun _ member => Or.inl member)
  | @readChannel i c err name current found =>
      refine wired.keep (fun _ member => member) rfl rfl ?_
        (Library.each_set (fun _ member => Or.inl member) (Or.inr trivial))
      intro other c' member
      rcases List.mem_append.mp member with before | isNew
      · exact Or.inl before
      · cases List.mem_singleton.mp isNew
        exact Or.inr found
  | missChannel current missing =>
      exact wired.keep (fun _ member => member) rfl rfl (fun _ _ member => Or.inl member)
        (Library.each_set (fun _ member => Or.inl member) (Or.inr trivial))
  | @makeChannel i err name current =>
      have stores : w.stores (.proceed i err) = some name := by
        simp only [World.stores, current]
      refine wired.makeChannel (keeps name stores) (fun _ member => Or.inl member) rfl rfl ?_
        (Library.each_set (fun _ member => Or.inl member) (Or.inr trivial))
      intro other c member
      rcases List.mem_append.mp member with before | isNew
      · exact Or.inl before
      · cases List.mem_singleton.mp isNew
        exact Or.inr ⟨rfl, rfl⟩

end Wired

theorem chans_of_sending {w next : World} {i mv : Nat} {err : Bool} {name group : String}
    {ch : Option Nat} (sends : w.tasks[i]? = some (.subscriber name group (.sending mv) ch))
    (stepped : w.step (.proceed i err) = some next) :
    next.broker.chans = Broker.send w.broker.chans ch (name, mv) := by
  unfold World.step at stepped
  split at stepped
  · cases stepped
  · simp only [sends, Option.bind_some, World.proceed] at stepped
    obtain ⟨tp, found, rfl⟩ := Option.map_eq_some_iff.mp stepped
    rfl

/-- In every run that overwrites no entry of the table, a dead letter is sent to every
channel that `DLQ` has returned for its topic, unless the buffer is full. -/
theorem dead_letters_reach_readers {maxRetries : Int64} {acts : List Act} {w next : World}
    (reached : execute World.step (World.start maxRetries) acts = some w)
    (keeps : Guarded World.step KeepsChannels (World.start maxRetries) acts)
    {i mv : Nat} {err : Bool} {name group : String} {ch : Option Nat}
    (sends : w.tasks[i]? = some (.subscriber name group (.sending mv) ch))
    (stepped : w.step (.proceed i err) = some next) :
    ∀ c, (name, c) ∈ w.handed → ∃ buf, w.broker.chans[c]? = some buf ∧
      next.broker.chans[c]? =
        some (if buf.length < chanCap then buf ++ [(name, mv)] else buf) := by
  have wired : Wired w := Library.invariant_of_guarded World.step Wired
    (fun _ _ _ held guard taken => wired_steps held guard (steps_of_step taken))
    (wired_start maxRetries) keeps reached
  intro c handed
  have entry := wired.handed name c handed
  obtain ⟨c', rfl, same⟩ := wired.reads _ (List.mem_of_getElem? sends)
  rw [entry] at same
  cases same
  have inside := List.getElem?_eq_getElem (wired.valid name c entry)
  refine ⟨_, inside, ?_⟩
  rw [chans_of_sending sends stepped, Broker.send, List.getElem?_modify_eq, inside]
  rfl

/-- A message on `t` fails twice in the group `g`, up to the point where its dead letter
is sent; the first subscriber is the task `i`. -/
def twoFailures (i : Nat) : List Act := List.replicate 15 (.proceed i true)

/-- `Publish` and `Subscribe` as the tasks `i` and `i + 1`. -/
def publishAndSubscribe (i : Nat) : List Act :=
  [.publish "t" "k" [1] ∅, .proceed i false, .proceed i false, .proceed i false,
    .subscribe "t" "g", .proceed (i + 1) false, .proceed (i + 1) false]

/-- The dead letters of `t` are asked for after the topic exists. -/
def readerAfter : List Act :=
  publishAndSubscribe 0 ++ [.dlq "t", .proceed 3 false] ++ twoFailures 2

theorem dead_letters_reach_later_reader :
    ∃ w next, execute World.step (World.start 1) readerAfter = some w ∧
      w.step (.proceed 2 false) = some next ∧ w.handed = [("t", 0)] ∧
      next.broker.chans[0]? = some [("t", 0)] := by
  obtain ⟨w, reached, sends, handed, empty, goesOn⟩ :=
    Library.exists_of_execute_test World.step (World.start 1) readerAfter
      (fun w => w.tasks[2]? = some (.subscriber "t" "g" (.sending 0) (some 0)) ∧
        w.handed = [("t", 0)] ∧ w.broker.chans[0]? = some [] ∧
        (w.step (.proceed 2 false)).isSome = true) (by decide +kernel)
  obtain ⟨next, stepped⟩ := Option.isSome_iff_exists.mp goesOn
  have keeps : Guarded World.step KeepsChannels (World.start 1) readerAfter :=
    Library.guarded_of_check World.step (by decide +kernel)
  obtain ⟨buf, isBuf, sent⟩ := dead_letters_reach_readers reached keeps sends stepped 0
    (by rw [handed]; exact List.mem_singleton_self _)
  rw [empty] at isBuf
  cases isBuf
  exact ⟨w, next, reached, stepped, handed, sent⟩

/-- The dead letters of `t` are asked for before the topic exists. -/
def readerBefore : List Act :=
  [.dlq "t", .proceed 0 false, .proceed 0 false] ++ publishAndSubscribe 1 ++ twoFailures 3

/-- The channel that `DLQ` has returned is replaced when the topic is created, and the
dead letter is sent to the new one. -/
theorem dead_letter_misses_earlier_reader :
    ∃ w, execute World.step (World.start 1) readerBefore = some w ∧
      w.tasks[3]? = some (.subscriber "t" "g" (.sending 0) (some 1)) ∧
      w.handed = [("t", 0)] ∧ w.broker.chans = [[], []] ∧
      (w.step (.proceed 3 false)).map (fun next => next.broker.chans) =
        some [[], [("t", 0)]] :=
  Library.exists_of_execute_test World.step (World.start 1) readerBefore
    (fun w => w.tasks[3]? = some (.subscriber "t" "g" (.sending 0) (some 1)) ∧
      w.handed = [("t", 0)] ∧ w.broker.chans = [[], []] ∧
      (w.step (.proceed 3 false)).map (fun next => next.broker.chans) =
        some [[], [("t", 0)]]) (by decide +kernel)

end MiniCloud.Mq
