import MiniCloud.Library.Runs
import MiniCloud.Library.VersionedMap

/-!
# Leader election over a shared key

The election of `leader.go`: the nodes of a group share one key of an atomic
key-value store, and every node ticks on its own timer.  A tick is cut at the
points where another node can come between: after setting the state, after reading
the clock, after bumping the term, between `Get` and the write, and between the
write and the change of state.  The shared store is a versioned map of records,
which stands for their JSON texts.  Terms and versions, of the type `uint64` in the
source, are natural numbers, for runs in which none reaches 2^64.  The heartbeat only drives the timer and is
left out; `lastWrite` is kept for the statements and is not read by the program.
-/

namespace MiniCloud.Leader

open MiniCloud.Library

inductive State where
  | follower
  | candidate
  | leader
  deriving DecidableEq, Repr

/-- The persisted leader record. -/
structure LeaderRecord where
  nodeID : String
  term : Nat
  expiry : Int
  deriving DecidableEq, Repr

/-- Where a node is inside `tick`. -/
inductive Tick where
  | idle
  | candidate
  | timed (now : Int)
  | drafted (now : Int) (cur : LeaderRecord)
  | following (now : Int) (prev : LeaderRecord)
  | claiming (now : Int) (cur : LeaderRecord)
  | swapping (now : Int) (cur : LeaderRecord) (version : Nat)
  | won (now : Int)
  deriving DecidableEq, Repr

structure Election where
  ttl : Int
  state : State
  term : Nat
  lastSeen : Int
  tick : Tick
  /-- The version and the expiry of the record that the node wrote last. -/
  lastWrite : Option (Nat × Int)
  deriving DecidableEq, Repr

/-- `NewElection`, with its default of five seconds. -/
def newElection (ttl : Int) : Election :=
  ⟨if ttl = 0 then 5000000000 else ttl, .follower, 0, 0, .idle, none⟩

def leaderKey (group : String) : String := "_leader/" ++ group

/-- The nodes of one group, by their identity, with the store and the clock. -/
structure Cluster where
  group : String
  clock : Int
  kv : VersionedMap String LeaderRecord
  nodes : String → Election

inductive Act where
  | pass (duration : Nat)
  | tick (id : String) (reachable : Bool)
  deriving DecidableEq, Repr

namespace Cluster

/-- Every node of the group before its first tick. -/
def boot (group : String) (clock : Int) (kv : VersionedMap String LeaderRecord)
    (ttl : String → Int) : Cluster :=
  ⟨group, clock, kv, fun id => newElection (ttl id)⟩

/-- The leader record with its version. -/
def record (c : Cluster) : Option (LeaderRecord × Nat) := c.kv.lookup (leaderKey c.group)

/-- The version of the leader record, zero without one. -/
def version (c : Cluster) : Nat := c.kv.version (leaderKey c.group)

/-- The next part of the tick of a node; a store that cannot be reached ends the
tick without an effect. -/
def proceed (c : Cluster) (id : String) (reachable : Bool) :
    Election × VersionedMap String LeaderRecord :=
  let e := c.nodes id
  match e.tick with
  | .idle => ({ e with state := .candidate, tick := .candidate }, c.kv)
  | .candidate => ({ e with tick := .timed c.clock }, c.kv)
  | .timed now =>
      ({ e with term := e.term + 1, tick := .drafted now ⟨id, e.term + 1, now + e.ttl⟩ }, c.kv)
  | .drafted now cur =>
      if reachable = false then ({ e with tick := .idle }, c.kv)
      else
        match c.record with
        | none => ({ e with tick := .claiming now cur }, c.kv)
        | some (prev, version) =>
            if now < prev.expiry ∧ cur.term ≤ prev.term then
              ({ e with tick := .following now prev }, c.kv)
            else ({ e with tick := .swapping now cur version }, c.kv)
  | .following now prev =>
      ({ e with state := .follower, term := prev.term, lastSeen := now, tick := .idle }, c.kv)
  | .claiming now cur =>
      if reachable = false then ({ e with tick := .idle }, c.kv)
      else
        ({ e with tick := .won now, lastWrite := some (c.version + 1, cur.expiry) },
          c.kv.put (leaderKey c.group) cur)
  | .swapping now cur version =>
      if reachable = false then ({ e with tick := .idle }, c.kv)
      else
        match c.kv.compareAndSwap (leaderKey c.group) cur version with
        | none => ({ e with tick := .idle }, c.kv)
        | some kv => ({ e with tick := .won now, lastWrite := some (version + 1, cur.expiry) }, kv)
  | .won now => ({ e with state := .leader, lastSeen := now, tick := .idle }, c.kv)

def step (c : Cluster) : Act → Option Cluster
  | .pass duration => some { c with clock := c.clock + duration }
  | .tick id reachable =>
      let (e, kv) := c.proceed id reachable
      some { c with kv := kv, nodes := Function.update c.nodes id e }

/-- `IsLeader` -/
def isLeader (c : Cluster) (id : String) : Bool := (c.nodes id).state = .leader

/-- A tick with nothing in between, up to the change of state after its write. -/
def fullTick (id : String) : List Act := List.replicate 6 (.tick id true)

/-- A cluster with a lease of five units for every node and no record. -/
def smallCluster : Cluster := boot "controller" 0 ∅ fun _ => 5

/-! ## Inverting one step -/

/-- Everything a part of a tick can do to the node and to the store. -/
inductive Part (c : Cluster) (id : String) (e : Election) (reachable : Bool) :
    Election → VersionedMap String LeaderRecord → Prop where
  | start (stage : e.tick = .idle) :
      Part c id e reachable { e with state := .candidate, tick := .candidate } c.kv
  | readClock (stage : e.tick = .candidate) :
      Part c id e reachable { e with tick := .timed c.clock } c.kv
  | draft {now : Int} (stage : e.tick = .timed now) :
      Part c id e reachable
        { e with term := e.term + 1, tick := .drafted now ⟨id, e.term + 1, now + e.ttl⟩ } c.kv
  | giveUp : Part c id e reachable { e with tick := .idle } c.kv
  | absent {now : Int} {cur : LeaderRecord} (stage : e.tick = .drafted now cur)
      (none : c.record = none) : Part c id e reachable { e with tick := .claiming now cur } c.kv
  | yield {now : Int} {cur prev : LeaderRecord} {version : Nat}
      (stage : e.tick = .drafted now cur) (found : c.record = some (prev, version))
      (unexpired : now < prev.expiry) (ahead : cur.term ≤ prev.term) :
      Part c id e reachable { e with tick := .following now prev } c.kv
  | contest {now : Int} {cur prev : LeaderRecord} {version : Nat}
      (stage : e.tick = .drafted now cur) (found : c.record = some (prev, version))
      (outbids : now < prev.expiry → prev.term < cur.term) :
      Part c id e reachable { e with tick := .swapping now cur version } c.kv
  | follow {now : Int} {prev : LeaderRecord} (stage : e.tick = .following now prev) :
      Part c id e reachable
        { e with state := .follower, term := prev.term, lastSeen := now, tick := .idle } c.kv
  | claim {now : Int} {cur : LeaderRecord} (stage : e.tick = .claiming now cur)
      (reached : reachable = true) :
      Part c id e reachable
        { e with tick := .won now, lastWrite := some (c.version + 1, cur.expiry) }
        (c.kv.put (leaderKey c.group) cur)
  | swap {now : Int} {cur : LeaderRecord} (stage : e.tick = .swapping now cur c.version) :
      Part c id e reachable
        { e with tick := .won now, lastWrite := some (c.version + 1, cur.expiry) }
        (c.kv.put (leaderKey c.group) cur)
  | lead {now : Int} (stage : e.tick = .won now) :
      Part c id e reachable { e with state := .leader, lastSeen := now, tick := .idle } c.kv

/-- A part that uses the store ends the tick if the store cannot be reached. -/
theorem part_of_reached {c : Cluster} {id : String} {e : Election} {reachable : Bool}
    {next : Election × VersionedMap String LeaderRecord}
    (goesOn : reachable = true → Part c id e reachable next.1 next.2) :
    Part c id e reachable
      (if reachable = false then ({ e with tick := .idle }, c.kv) else next).1
      (if reachable = false then ({ e with tick := .idle }, c.kv) else next).2 := by
  cases reachable with
  | false => exact .giveUp
  | true => exact goesOn rfl

theorem part_of_proceed (c : Cluster) (id : String) (reachable : Bool) :
    Part c id (c.nodes id) reachable (c.proceed id reachable).1 (c.proceed id reachable).2 := by
  cases stage : (c.nodes id).tick with
  | idle =>
      simp only [proceed, stage]
      exact .start stage
  | candidate =>
      simp only [proceed, stage]
      exact .readClock stage
  | timed now =>
      simp only [proceed, stage]
      exact .draft stage
  | drafted now cur =>
      simp only [proceed, stage]
      apply part_of_reached
      intro _
      cases found : c.record with
      | none => exact .absent stage found
      | some stored =>
          obtain ⟨prev, version⟩ := stored
          by_cases yields : now < prev.expiry ∧ cur.term ≤ prev.term
          · simp only [if_pos yields]
            exact .yield stage found yields.1 yields.2
          · simp only [if_neg yields]
            refine .contest stage found ?_
            intro unexpired
            exact Nat.lt_of_not_le fun ahead => yields ⟨unexpired, ahead⟩
  | following now prev =>
      simp only [proceed, stage]
      exact .follow stage
  | claiming now cur =>
      simp only [proceed, stage]
      exact part_of_reached fun reached => .claim stage reached
  | swapping now cur version =>
      simp only [proceed, stage]
      apply part_of_reached
      intro _
      cases swapped : c.kv.compareAndSwap (leaderKey c.group) cur version with
      | none => exact .giveUp
      | some kv =>
          obtain ⟨current, rfl⟩ := VersionedMap.compareAndSwap_eq_some_iff.mp swapped
          have isVersion : version = c.version := current.symm
          subst isVersion
          exact .swap stage
  | won now =>
      simp only [proceed, stage]
      exact .lead stage

/-- Everything one step can do to the cluster. -/
inductive Transition (c : Cluster) : Act → Cluster → Prop where
  | passed (duration : Nat) :
      Transition c (.pass duration) { c with clock := c.clock + duration }
  | ticked {id : String} {reachable : Bool} {e : Election}
      {kv : VersionedMap String LeaderRecord} (part : Part c id (c.nodes id) reachable e kv) :
      Transition c (.tick id reachable)
        { c with kv := kv, nodes := Function.update c.nodes id e }

theorem transition_of_step {c next : Cluster} {act : Act} (stepped : c.step act = some next) :
    Transition c act next := by
  cases act with
  | pass duration =>
      cases Option.some.inj stepped
      exact .passed duration
  | tick id reachable =>
      cases Option.some.inj stepped
      exact .ticked (part_of_proceed c id reachable)

/-- A property of every node that depends on the clock and the stored record is
kept by a step when time, the node's own ticks and those of the others keep it. -/
theorem each_of_transition
    {P : Int → Option (LeaderRecord × Nat) → Nat → String → Election → Prop}
    {c next : Cluster} {act : Act} (moved : Transition c act next)
    (passes : ∀ duration id, act = .pass duration →
      P (c.clock + duration) c.record c.version id (c.nodes id))
    (ticks : ∀ id reachable e kv, act = .tick id reachable →
      Part c id (c.nodes id) reachable e kv →
        P c.clock (kv.lookup (leaderKey c.group)) (kv.version (leaderKey c.group)) id e ∧
        ∀ other, other ≠ id → P c.clock (kv.lookup (leaderKey c.group))
          (kv.version (leaderKey c.group)) other (c.nodes other)) :
    ∀ id, P next.clock next.record next.version id (next.nodes id) := by
  intro id
  cases moved with
  | passed duration => exact passes duration id rfl
  | @ticked ticking reachable e kv part =>
      obtain ⟨own, others⟩ := ticks ticking reachable e kv rfl part
      by_cases same : id = ticking
      · subst same
        have isNext : (Function.update c.nodes id e) id = e := Function.update_self _ _ _
        change P _ _ _ id ((Function.update c.nodes id e) id)
        rw [isNext]
        exact own
      · have isOld : (Function.update c.nodes ticking e) id = c.nodes id :=
          Function.update_of_ne same _ _
        change P _ _ _ id ((Function.update c.nodes ticking e) id)
        rw [isOld]
        exact others id same

/-- A record is found at the current version. -/
theorem version_of_record {c : Cluster} {r : LeaderRecord} {v : Nat}
    (found : c.record = some (r, v)) : v = c.version := by
  unfold version VersionedMap.version
  unfold record at found
  rw [found]

end Cluster

end MiniCloud.Leader
