import MiniCloud.Db.Concurrent

/-!
# Watchers

`Watch` registers a channel, lists the store in a second critical section and
leaves the replay of the listing to a goroutine; with a timeout another goroutine
closes the channel.  `applyFromQueue` takes the queued events as a batch, at the
end of a write or in the run loop, and `fanout` offers each event to every
registered watcher under the read lock of the watchers.  The three kinds of
goroutines interleave with the calls of `MiniCloud.Db.Concurrent`.

A channel is the list of entries sent on it with the number of entries that the
client has received.  A nil event that is dereferenced and a send on a closed
channel panic, and a panic ends the process.  The run loop may enter
`applyFromQueue` at any time, and `fanout` may serve the watchers in any order.
-/

namespace MiniCloud.Db

open MiniCloud.Library

/-- How far a `Watch` call and its replay goroutine have got. -/
inductive WatchStage where
  | registered
  | replaying (rest : List Entry)
  deriving DecidableEq, Repr

/-- What the goroutines of one watcher, its context and its client do. -/
inductive WatcherAct where
  /-- The listing in `Watch`. -/
  | list
  /-- The next send of the replay goroutine. -/
  | replay
  /-- The replay goroutine sees the cancelled context. -/
  | stopReplay
  | cancel
  /-- The timer fires or the context is done. -/
  | close
  | receive
  deriving DecidableEq, Repr

inductive Panic where
  /-- `invalid memory address or nil pointer dereference` -/
  | nilEvent
  /-- `send on closed channel` -/
  | sendOnClosed
  deriving DecidableEq, Repr

structure Watcher where
  pfx : String
  timeout : Int
  stage : WatchStage
  /-- Everything that was sent on the channel. -/
  sent : List Entry
  /-- How many of the entries sent the client has received. -/
  received : Nat
  cancelled : Bool
  closed : Bool
  /-- Whether an event found the buffer full. -/
  dropped : Bool
  deriving DecidableEq, Repr

namespace Watcher

/-- The watcher as `Watch` registers it. -/
def register (pfx : String) (timeout : Int) : Watcher :=
  ⟨pfx, timeout, .registered, [], 0, false, false, false⟩

/-- The channel holds 256 entries. -/
def Full (w : Watcher) : Prop := 256 ≤ w.sent.length - w.received

instance (w : Watcher) : Decidable w.Full := inferInstanceAs (Decidable (_ ≤ _))

/-- The entries that the replay goroutine has yet to send. -/
def rest (w : Watcher) : List Entry :=
  match w.stage with
  | .registered => []
  | .replaying rest => rest

/-- The body of the inner loop of `fanout`. -/
def offer (w : Watcher) (e : Entry) : Except Panic Watcher :=
  if hasPrefix e.key w.pfx = false then .ok w
  else if w.closed then .error .sendOnClosed
  else if w.Full then .ok { w with dropped := true }
  else .ok { w with sent := w.sent ++ [e] }

/-- One step of a goroutine of the watcher or of its client, given the store;
`none` while it blocks. -/
def step (w : Watcher) (st : Store) : WatcherAct → Option (Except Panic Watcher)
  | .list =>
      if w.stage = .registered then
        some (.ok { w with stage := .replaying (st.entries.list w.pfx) })
      else none
  | .replay =>
      match w.stage with
      | .registered | .replaying [] => none
      | .replaying (e :: rest) =>
          if w.closed then some (.error .sendOnClosed)
          else if w.Full then none
          else some (.ok { w with sent := w.sent ++ [e], stage := .replaying rest })
  | .stopReplay =>
      if w.cancelled ∧ w.stage ≠ .registered then
        some (.ok { w with stage := .replaying [] })
      else none
  | .cancel => some (.ok { w with cancelled := true })
  -- the goroutine exists only with a timeout, and closes the channel once
  | .close =>
      if 0 < w.timeout ∧ w.stage ≠ .registered ∧ w.closed = false then
        some (.ok { w with closed := true })
      else none
  | .receive =>
      if w.received < w.sent.length then some (.ok { w with received := w.received + 1 })
      else none

end Watcher

/-- A batch of events that a goroutine inside `applyFromQueue` has taken. -/
structure Drain where
  /-- The call that took the batch; `none` is the run loop. -/
  owner : Option Nat
  /-- The events that have not entered `fanout` yet. -/
  events : List (Option Entry)
  /-- The event inside `fanout`, and the watchers that it has yet to reach. -/
  current : Option Entry
  todo : List Nat
  deriving DecidableEq, Repr

/-- The goroutine has left `applyFromQueue`. -/
def Drain.Finished (d : Drain) : Prop := d.events = [] ∧ d.todo = []

instance (d : Drain) : Decidable d.Finished := inferInstanceAs (Decidable (_ ∧ _))

/-- The world of calls, the watchers and the batches on their way to them. -/
structure Hub where
  world : World
  watchers : List Watcher
  drains : List Drain
  panicked : Option Panic
  /-- The entries whose event was appended to the queue, with the event. -/
  published : List (LogEntry × Option Entry)

inductive HubAct where
  | world (act : Act)
  /-- The run loop enters `applyFromQueue`. -/
  | loop
  /-- The next event of a batch enters `fanout`. -/
  | fan (d : Nat)
  /-- An event inside `fanout` is offered to a watcher. -/
  | send (d k : Nat)
  | watch (pfx : String) (timeout : Int)
  | watcher (k : Nat) (act : WatcherAct)
  deriving DecidableEq, Repr

namespace Stage

/-- The batch that the section of a call takes. -/
def batch (i : Nat) (queue : List (Option Entry)) : Stage → List Drain
  | .applied => [⟨some i, queue, none, []⟩]
  | _ => []

/-- The event that the section of a call appends to the queue. -/
def event (e : LogEntry) : Stage → List (LogEntry × Option Entry)
  | .observed ev => [(e, ev)]
  | _ => []

end Stage

namespace Hub

def boot (n : Node) : Hub := ⟨.boot n, [], [], none, []⟩

/-- No goroutine of the given owner is inside `applyFromQueue`. -/
def Idle (h : Hub) (owner : Option Nat) : Prop :=
  ∀ d ∈ h.drains, d.owner = owner → d.Finished

instance (h : Hub) (owner : Option Nat) : Decidable (h.Idle owner) :=
  inferInstanceAs (Decidable (∀ d ∈ h.drains, _))

/-- The next section of a call; it returns only after its own batch is served. -/
def proceed (h : Hub) (i : Nat) (env : WriteEnv) : Option Hub :=
  match h.world.calls[i]? with
  | some (.writing _ e stage) =>
      if h.Idle (some i) then
        (h.world.step (.proceed i env)).map fun world =>
          { h with
            world := world
            drains := h.drains ++ stage.batch i h.world.node.raft.applyQueue
            published := h.published ++ stage.event e }
      else none
  | _ => none

/-- `applyFromQueue` in the run loop. -/
def loop (h : Hub) : Option Hub :=
  if h.Idle none then
    some
      { h with
        world.node.raft := h.world.node.raft.applyFromQueue
        drains := h.drains ++ [⟨none, h.world.node.raft.applyQueue, none, []⟩] }
  else none

/-- The next event of a batch takes the read lock of the watchers. -/
def fan (h : Hub) (d : Nat) : Option Hub :=
  match h.drains[d]? with
  | some ⟨owner, ev :: rest, _, []⟩ =>
      some { h with drains := h.drains.set d ⟨owner, rest, ev, List.range h.watchers.length⟩ }
  | _ => none

/-- One round of the loop over the watchers in `fanout`. -/
def send (h : Hub) (d k : Nat) : Option Hub :=
  match h.drains[d]?, h.watchers[k]? with
  | some drain, some w =>
      if k ∈ drain.todo then
        match drain.current with
        | none => some { h with panicked := some .nilEvent }
        | some e =>
            match w.offer e with
            | .error panic => some { h with panicked := some panic }
            | .ok w =>
                some
                  { h with
                    drains := h.drains.set d { drain with todo := drain.todo.erase k }
                    watchers := h.watchers.set k w }
      else none
  | _, _ => none

/-- The write lock of `Watch` waits for every `fanout` in progress. -/
def watch (h : Hub) (pfx : String) (timeout : Int) : Option Hub :=
  if ∀ d ∈ h.drains, d.todo = [] then
    some { h with watchers := h.watchers ++ [.register pfx timeout] }
  else none

/-- A step of one watcher. -/
def attend (h : Hub) (k : Nat) (act : WatcherAct) : Option Hub :=
  match h.watchers[k]? with
  | none => none
  | some w =>
      match w.step h.world.node.raft.st act with
      | none => none
      | some (.error panic) => some { h with panicked := some panic }
      | some (.ok w) => some { h with watchers := h.watchers.set k w }

/-- One step; nothing runs after a panic. -/
def step (h : Hub) (act : HubAct) : Option Hub :=
  if h.panicked.isSome then none
  else
    match act with
    | .world (.proceed i env) => h.proceed i env
    | .world act => (h.world.step act).map fun world => { h with world := world }
    | .loop => h.loop
    | .fan d => h.fan d
    | .send d k => h.send d k
    | .watch pfx timeout => h.watch pfx timeout
    | .watcher k act => h.attend k act

/-! ## Inverting one step -/

/-- Everything one step can do to the hub. -/
inductive Transition (h : Hub) : HubAct → Hub → Prop where
  | world {act : Act} {world : World} (moved : World.Transition h.world act world)
      (noCall : ∀ i env, act ≠ .proceed i env) :
      Transition h (.world act) { h with world := world }
  | ran {i : Nat} {env : WriteEnv} {req : Request} {e e' : LogEntry} {stage stage' : Stage}
      {node : Node} (current : h.world.calls[i]? = some (.writing req e stage))
      (served : h.Idle (some i)) (ran : Node.Section h.world.node e env stage e' stage' node) :
      Transition h (.world (.proceed i env))
        { h with
          world :=
            { h.world with
              node := node
              calls := h.world.calls.set i (.writing req e' stage')
              history := if stage = .marked then h.world.history ++ [e] else h.world.history }
          drains := h.drains ++ stage.batch i h.world.node.raft.applyQueue
          published := h.published ++ stage.event e }
  | loop :
      Transition h .loop
        { h with
          world.node.raft := h.world.node.raft.applyFromQueue
          drains := h.drains ++ [⟨none, h.world.node.raft.applyQueue, none, []⟩] }
  | fan {d : Nat} {owner : Option Nat} {ev last : Option Entry} {rest : List (Option Entry)}
      (current : h.drains[d]? = some ⟨owner, ev :: rest, last, []⟩) :
      Transition h (.fan d)
        { h with drains := h.drains.set d ⟨owner, rest, ev, List.range h.watchers.length⟩ }
  | nilEvent {d k : Nat} {drain : Drain} (current : h.drains[d]? = some drain)
      (pending : k ∈ drain.todo) (nil : drain.current = none) :
      Transition h (.send d k) { h with panicked := some .nilEvent }
  | sent {d k : Nat} {drain : Drain} {w w' : Watcher} {e : Entry}
      (current : h.drains[d]? = some drain) (slot : h.watchers[k]? = some w)
      (pending : k ∈ drain.todo) (event : drain.current = some e)
      (offered : w.offer e = .ok w') :
      Transition h (.send d k)
        { h with
          drains := h.drains.set d { drain with todo := drain.todo.erase k }
          watchers := h.watchers.set k w' }
  | closed {act : HubAct} {w : Watcher} (member : w ∈ h.watchers) (isClosed : w.closed = true) :
      Transition h act { h with panicked := some .sendOnClosed }
  | watch {pfx : String} {timeout : Int} (unlocked : ∀ d ∈ h.drains, d.todo = []) :
      Transition h (.watch pfx timeout)
        { h with watchers := h.watchers ++ [.register pfx timeout] }
  | attended {k : Nat} {act : WatcherAct} {w w' : Watcher} (slot : h.watchers[k]? = some w)
      (stepped : w.step h.world.node.raft.st act = some (.ok w')) :
      Transition h (.watcher k act) { h with watchers := h.watchers.set k w' }

/-- An offer fails only on a closed channel. -/
theorem closed_of_offer {w : Watcher} {e : Entry} {panic : Panic}
    (offered : w.offer e = .error panic) : w.closed = true ∧ panic = .sendOnClosed := by
  unfold Watcher.offer at offered
  split at offered
  · cases offered
  · split at offered
    · rename_i isClosed
      cases offered
      exact ⟨isClosed, rfl⟩
    · split at offered <;> cases offered

/-- A step of a watcher fails only on a closed channel. -/
theorem closed_of_step {w : Watcher} {st : Store} {act : WatcherAct} {panic : Panic}
    (stepped : w.step st act = some (.error panic)) :
    w.closed = true ∧ panic = .sendOnClosed := by
  cases act with
  | replay =>
      simp only [Watcher.step] at stepped
      split at stepped
      · cases stepped
      · cases stepped
      · split at stepped
        · rename_i isClosed
          cases stepped
          exact ⟨isClosed, rfl⟩
        · split at stepped <;> cases stepped
  | list | stopReplay | close | receive =>
      simp only [Watcher.step] at stepped
      split at stepped <;> cases stepped
  | cancel => cases stepped

theorem transition_of_proceed {h next : Hub} {i : Nat} {env : WriteEnv}
    (stepped : h.proceed i env = some next) :
    Transition h (.world (.proceed i env)) next := by
  unfold proceed at stepped
  split at stepped
  · rename_i req e stage current
    split at stepped
    · rename_i served
      obtain ⟨world, moved, rfl⟩ := Option.map_eq_some_iff.mp stepped
      simp only [World.step, current] at moved
      obtain ⟨⟨e', stage', node⟩, proceeded, rfl⟩ := Option.map_eq_some_iff.mp moved
      exact .ran current served (Node.section_of_proceed proceeded)
    · cases stepped
  · cases stepped

theorem transition_of_send {h next : Hub} {d k : Nat} (stepped : h.send d k = some next) :
    Transition h (.send d k) next := by
  unfold send at stepped
  split at stepped
  · rename_i drain w current slot
    split at stepped
    · rename_i pending
      split at stepped
      · rename_i nil
        cases stepped
        exact .nilEvent current pending nil
      · rename_i e event
        split at stepped
        · rename_i panic offered
          cases stepped
          obtain ⟨isClosed, rfl⟩ := closed_of_offer offered
          exact .closed (List.mem_of_getElem? slot) isClosed
        · rename_i w' offered
          cases stepped
          exact .sent current slot pending event offered
    · cases stepped
  · cases stepped

theorem transition_of_attend {h next : Hub} {k : Nat} {act : WatcherAct}
    (stepped : h.attend k act = some next) : Transition h (.watcher k act) next := by
  unfold attend at stepped
  split at stepped
  · cases stepped
  · rename_i w slot
    split at stepped
    · cases stepped
    · rename_i panic failed
      cases stepped
      obtain ⟨isClosed, rfl⟩ := closed_of_step failed
      exact .closed (List.mem_of_getElem? slot) isClosed
    · rename_i w' moved
      cases stepped
      exact .attended slot moved

/-- A step is taken before any panic, and is one of the transitions. -/
theorem transition_of_step {h next : Hub} {act : HubAct} (stepped : h.step act = some next) :
    h.panicked = none ∧ Transition h act next := by
  unfold step at stepped
  split at stepped
  · cases stepped
  · rename_i running
    refine ⟨by simpa using running, ?_⟩
    split at stepped
    · exact transition_of_proceed stepped
    · rename_i act noCall
      obtain ⟨world, moved, rfl⟩ := Option.map_eq_some_iff.mp stepped
      exact .world (World.transition_of_step moved) noCall
    · unfold loop at stepped
      split at stepped
      · cases stepped
        exact .loop
      · cases stepped
    · unfold fan at stepped
      split at stepped
      · rename_i owner ev rest last current
        cases stepped
        exact .fan current
      · cases stepped
    · exact transition_of_send stepped
    · unfold watch at stepped
      split at stepped
      · rename_i unlocked
        cases stepped
        exact .watch unlocked
      · cases stepped
    · exact transition_of_attend stepped

end Hub

end MiniCloud.Db
