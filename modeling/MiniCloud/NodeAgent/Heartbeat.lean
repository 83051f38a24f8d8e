import MiniCloud.NodeAgent.Reconcile
import MiniCloud.Scheduler.Capacity
import MiniCloud.State.Methods

/-!
# Heartbeats and draining

`heartbeatOnce` reads the record of the node, fills in what the collector reports
and writes the record back.  An agent in drain mode marks the record; an agent that
is not leaves the marks as they were read.  A mark therefore stays until the node is
registered anew, whatever `SetDrain` says.
-/

namespace MiniCloud.NodeAgent

open MiniCloud.State
open MiniCloud.Scheduler (passes plainWorkload)

/-! ## The agent -/

/-- The report of the collector, as far as `heartbeatOnce` reads it. -/
structure Heartbeat where
  cpuUsage : Int64
  memUsage : Int64
  timestamp : Time
  deriving DecidableEq, Repr

/-- The node record with the fields that only the agent writes. -/
structure NodeRecord extends Node where
  address : String
  lastHeartbeat : Time

/-- The agent with the fields that the heartbeats use. -/
structure BeatingAgent extends Agent where
  address : String
  draining : Bool

def BeatingAgent.setDrain (a : BeatingAgent) (drain : Bool) : BeatingAgent :=
  { a with draining := drain }

/-- What the collector and the store answer during a heartbeat. -/
structure Answers where
  collect : Except String Heartbeat
  /-- A failure other than that there is no record. -/
  getNode : Option StoreError
  upsertNode : Option StoreError

/-- The record of a first-time registration. -/
def firstRecord (a : BeatingAgent) : NodeRecord where
  base := ⟨a.nodeID, "", a.nodeID⟩
  status := "Ready"
  unschedulable := false
  drain := false
  cordoned := false
  cpuAllocatable := 8000
  cpuAllocated := 0
  memAllocatable := 17179869184
  memAllocated := 0
  gpus := 0
  labels := ∅
  taints := []
  address := a.address
  lastHeartbeat := ⟨0⟩

/-- What `GetNode` returns; every error counts as a missing record. -/
def readNode (answers : Answers) (stored : Option NodeRecord) : Option NodeRecord :=
  match answers.getNode with
  | some _ => none
  | none => stored

/-- The record that a heartbeat starts from. -/
def startRecord (a : BeatingAgent) (hb : Heartbeat) : Option NodeRecord → NodeRecord
  | none => firstRecord a
  | some n => { n with lastHeartbeat := hb.timestamp, address := a.address, status := "Ready" }

/-- The record that a heartbeat writes. -/
def beat (a : BeatingAgent) (hb : Heartbeat) (read : Option NodeRecord) : NodeRecord :=
  let n := startRecord a hb read
  let n := { n with
    cpuAllocated := hb.cpuUsage, memAllocated := hb.memUsage, lastHeartbeat := hb.timestamp }
  if a.draining then { n with drain := true, unschedulable := true } else n

/-- The record of the node after a heartbeat, given the record before it. -/
def heartbeatOnce (a : BeatingAgent) (answers : Answers) (stored : Option NodeRecord) :
    Option NodeRecord :=
  match answers.collect with
  | .error _ => stored
  | .ok hb =>
      match answers.upsertNode with
      | some _ => stored
      | none => some (beat a hb (readNode answers stored))

/-! ## Runs -/

/-- The agent and the stored record of its node. -/
structure System where
  agent : BeatingAgent
  stored : Option NodeRecord

inductive Action where
  | setDrain (drain : Bool)
  | heartbeat (answers : Answers)

def System.next (s : System) : Action → System
  | .setDrain drain => { s with agent := s.agent.setDrain drain }
  | .heartbeat answers => { s with stored := heartbeatOnce s.agent answers s.stored }

def System.run (s : System) (actions : List Action) : System := actions.foldl System.next s

/-- The argument of the last `SetDrain`, `false` without one. -/
def lastDrain (actions : List Action) : Bool :=
  actions.foldl (fun last action =>
    match action with
    | .setDrain drain => drain
    | .heartbeat _ => last) false

/-- The heartbeat writes a record. -/
def Answers.writes (answers : Answers) : Bool :=
  match answers.collect, answers.upsertNode with
  | .ok _, none => true
  | _, _ => false

/-- The heartbeat sees the stored record. -/
def Answers.reads (answers : Answers) : Bool := answers.getNode.isNone

/-- The record carries the argument of `SetDrain`, and without drain mode the scheduler
looks at the other conditions only. -/
structure Reflects (wanted : Bool) (n : NodeRecord) : Prop where
  drain : n.drain = wanted
  unschedulable : n.unschedulable = wanted
  accepts : wanted = false → ∀ w,
    passes w { n.toNode with drain := false, unschedulable := false } = true →
      passes w n.toNode = true

/-- After every successful heartbeat the stored record carries the argument of the last
`SetDrain`. -/
def DrainFollows (s : System) (actions : List Action) : Prop :=
  ∀ before answers after, actions = before ++ .heartbeat answers :: after →
    answers.writes = true →
      ∃ n, (s.run (before ++ [.heartbeat answers])).stored = some n ∧
        Reflects (lastDrain before) n

/-! ## The marks of the record -/

/-- The flags `Drain` and `Unschedulable`. -/
def flags : Option NodeRecord → Bool × Bool
  | none => (false, false)
  | some n => (n.drain, n.unschedulable)

theorem reflects_iff {wanted : Bool} {n : NodeRecord} :
    Reflects wanted n ↔ flags (some n) = (wanted, wanted) := by
  constructor
  · intro reflects
    exact Prod.ext reflects.drain reflects.unschedulable
  · intro same
    obtain ⟨sameDrain, sameUnschedulable⟩ := Prod.ext_iff.mp same
    refine ⟨sameDrain, sameUnschedulable, ?_⟩
    intro off w accepted
    -- the record without the flags is the record
    have isRecord : ({ n.toNode with
        drain := n.drain, unschedulable := n.unschedulable } : Node) = n.toNode := rfl
    rw [show n.drain = wanted from sameDrain, show n.unschedulable = wanted from sameUnschedulable,
      off] at isRecord
    rwa [isRecord] at accepted

theorem flags_readNode (answers : Answers) (stored : Option NodeRecord) :
    flags (readNode answers stored) = if answers.reads then flags stored else (false, false) := by
  unfold readNode Answers.reads
  cases answers.getNode with
  | none => rfl
  | some e => rfl

/-- Drain mode sets both flags, and otherwise they stay as they were read. -/
theorem flags_beat (a : BeatingAgent) (hb : Heartbeat) (read : Option NodeRecord) :
    flags (some (beat a hb read)) = (a.draining || (flags read).1, a.draining || (flags read).2) := by
  unfold beat
  cases draining : a.draining with
  | true => rfl
  | false =>
      cases read with
      | none => rfl
      | some n => rfl

theorem heartbeatOnce_writes {answers : Answers} (writes : answers.writes = true)
    (a : BeatingAgent) (stored : Option NodeRecord) :
    ∃ hb, heartbeatOnce a answers stored = some (beat a hb (readNode answers stored)) := by
  unfold Answers.writes at writes
  unfold heartbeatOnce
  cases collected : answers.collect with
  | error e =>
      rw [collected] at writes
      cases writes
  | ok hb =>
      cases upserted : answers.upsertNode with
      | some e =>
          rw [collected, upserted] at writes
          cases writes
      | none => exact ⟨hb, rfl⟩

theorem heartbeatOnce_fails {answers : Answers} (fails : answers.writes = false)
    (a : BeatingAgent) (stored : Option NodeRecord) : heartbeatOnce a answers stored = stored := by
  unfold Answers.writes at fails
  unfold heartbeatOnce
  cases collected : answers.collect with
  | error e => rfl
  | ok hb =>
      cases upserted : answers.upsertNode with
      | some e => rfl
      | none =>
          rw [collected, upserted] at fails
          cases fails

/-! ## What a history says about the record -/

/-- The drain mode, and whether a heartbeat in drain mode was written since the node was
registered. -/
structure Marks where
  draining : Bool
  marked : Bool
  deriving DecidableEq, Repr

def Marks.next (m : Marks) : Action → Marks
  | .setDrain drain => { m with draining := drain }
  | .heartbeat answers =>
      if answers.writes then { m with marked := m.draining || (answers.reads && m.marked) } else m

def marksOf (actions : List Action) : Marks := actions.foldl Marks.next ⟨false, false⟩

/-- The history tells the flags of the record. -/
structure Tracks (s : System) (m : Marks) : Prop where
  draining : s.agent.draining = m.draining
  record : flags s.stored = (m.marked, m.marked)

/-- The flags that a heartbeat writes. -/
theorem Tracks.flags_written {s : System} {m : Marks} (tracks : Tracks s m) (answers : Answers)
    (hb : Heartbeat) :
    flags (some (beat s.agent hb (readNode answers s.stored))) =
      (m.draining || (answers.reads && m.marked), m.draining || (answers.reads && m.marked)) := by
  rw [flags_beat, flags_readNode, tracks.draining, tracks.record]
  cases answers.reads with
  | true => rfl
  | false => rfl

theorem Tracks.next {s : System} {m : Marks} (tracks : Tracks s m) (action : Action) :
    Tracks (s.next action) (m.next action) := by
  cases action with
  | setDrain drain => exact ⟨rfl, tracks.record⟩
  | heartbeat answers =>
      cases writes : answers.writes with
      | true =>
          obtain ⟨hb, written⟩ := heartbeatOnce_writes writes s.agent s.stored
          simp only [System.next, Marks.next, writes, if_true, written]
          exact ⟨tracks.draining, tracks.flags_written answers hb⟩
      | false =>
          simp only [System.next, Marks.next, writes, heartbeatOnce_fails writes]
          exact tracks

theorem Tracks.run {s : System} {m : Marks} (tracks : Tracks s m) (actions : List Action) :
    Tracks (s.run actions) (actions.foldl Marks.next m) := by
  induction actions generalizing s m with
  | nil => exact tracks
  | cons action rest ih => exact ih (tracks.next action)

theorem lastDrain_eq (actions : List Action) : lastDrain actions = (marksOf actions).draining := by
  have folded : ∀ m : Marks, actions.foldl (fun last action =>
      match action with
      | .setDrain drain => drain
      | .heartbeat _ => last) m.draining = (actions.foldl Marks.next m).draining := by
    induction actions with
    | nil => exact fun _ => rfl
    | cons action rest ih =>
        intro m
        have stepped : (m.next action).draining =
            match action with
            | .setDrain drain => drain
            | .heartbeat _ => m.draining := by
          cases action with
          | setDrain drain => rfl
          | heartbeat answers =>
              simp only [Marks.next]
              split
              · rfl
              · rfl
        rw [List.foldl_cons, List.foldl_cons, ← stepped]
        exact ih _
  exact folded ⟨false, false⟩

/-- Every heartbeat that reads a marked record is sent in drain mode. -/
def NeverUndrained (actions : List Action) : Prop :=
  ∀ before answers after, actions = before ++ .heartbeat answers :: after →
    answers.writes = true → answers.reads = true → (marksOf before).marked = true →
      lastDrain before = true

theorem unchanged_iff (draining reads marked : Bool) :
    (draining || (reads && marked), draining || (reads && marked)) = (draining, draining) ↔
      (reads = true → marked = true → draining = true) := by
  cases draining with
  | true => simp
  | false => cases reads <;> simp

/-- Of an agent that starts outside drain mode, with a record that is not marked, the
stored flags follow `SetDrain` exactly when no heartbeat leaves drain mode. -/
theorem drain_follows_iff {s : System} (off : s.agent.draining = false)
    (unmarked : flags s.stored = (false, false)) (actions : List Action) :
    DrainFollows s actions ↔ NeverUndrained actions := by
  have tracks : Tracks s ⟨false, false⟩ := ⟨off, unmarked⟩
  refine forall_congr' fun before => forall_congr' fun answers => forall_congr' fun after => ?_
  refine imp_congr_right fun _ => imp_congr_right fun writes => ?_
  have tracked := tracks.run before
  obtain ⟨hb, written⟩ := heartbeatOnce_writes writes (s.run before).agent (s.run before).stored
  have flagsWritten := tracked.flags_written answers hb
  have stored : (s.run (before ++ [.heartbeat answers])).stored =
      some (beat (s.run before).agent hb (readNode answers (s.run before).stored)) := by
    rw [System.run, List.foldl_append]
    exact written
  rw [stored, lastDrain_eq]
  simp only [Option.some.injEq, exists_eq_left', reflects_iff, flagsWritten]
  exact unchanged_iff _ _ _

/-- A heartbeat that answers well. -/
def beats (ns : Int) : Action := .heartbeat ⟨.ok ⟨100, 1000, ⟨ns⟩⟩, none, none⟩

/-- An agent whose node is not registered. -/
def newSystem : System := ⟨⟨⟨"n1", false⟩, "127.0.0.1:9000", false⟩, none⟩

/-- Drain mode is reported as long as it is not left. -/
theorem drain_follows_until_left :
    DrainFollows newSystem [beats 1, .setDrain true, beats 2, beats 3] := by
  refine (drain_follows_iff rfl rfl _).mpr ?_
  intro before answers after split _ _ marked
  rcases before with _ | ⟨first, _ | ⟨second, rest⟩⟩
  · cases marked
  · cases split
  · -- from the third action on the agent is in drain mode
    simp only [List.cons_append, List.cons.injEq] at split
    obtain ⟨rfl, rfl, later⟩ := split
    rcases rest with _ | ⟨third, rest⟩
    · rfl
    · simp only [List.cons_append, List.cons.injEq] at later
      obtain ⟨rfl, last⟩ := later
      rcases rest with _ | ⟨fourth, rest⟩
      · rfl
      · cases rest <;> cases last

/-- A cancelled drain stays in the record, and the node takes no workload. -/
theorem cancelled_drain_stays :
    ∃ n, (newSystem.run [.setDrain true, beats 1, .setDrain false, beats 2]).stored = some n ∧
      lastDrain [.setDrain true, beats 1, .setDrain false] = false ∧
      n.drain = true ∧ n.unschedulable = true ∧
      passes (plainWorkload "w" 1 400 40) n.toNode = false ∧
      passes (plainWorkload "w" 1 400 40)
        { n.toNode with drain := false, unschedulable := false } = true := by
  refine ⟨_, rfl, rfl, rfl, rfl, by decide +kernel, by decide +kernel⟩

end MiniCloud.NodeAgent
