import MiniCloud.NodeAgent.Heartbeat

/-!
# The fields that the operator owns

Labels, taints, the cordon and the capacities of a node are set by its operator.  A
heartbeat that has read the record writes them back.  A heartbeat whose read failed,
for whatever reason, registers the node anew: it writes the fields of a first
registration over those of the operator.
-/

namespace MiniCloud.NodeAgent

open MiniCloud.State

structure Owned where
  labels : Labels
  taints : List Taint
  cordoned : Bool
  gpus : Int64
  cpuAllocatable : Int64
  memAllocatable : Int64

def NodeRecord.owned (n : NodeRecord) : Owned :=
  ⟨n.labels, n.taints, n.cordoned, n.gpus, n.cpuAllocatable, n.memAllocatable⟩

/-- The fields of a first registration. -/
def newlyOwned : Owned := ⟨∅, [], false, 0, 8000, 17179869184⟩

/-- The heartbeat writes without having read. -/
def Answers.blind (answers : Answers) : Bool := answers.writes && !answers.reads

theorem owned_beat (a : BeatingAgent) (hb : Heartbeat) (read : Option NodeRecord) :
    (beat a hb read).owned = (read.map NodeRecord.owned).getD newlyOwned := by
  unfold beat
  cases a.draining with
  | true =>
      cases read with
      | none => rfl
      | some n => rfl
  | false =>
      cases read with
      | none => rfl
      | some n => rfl

theorem readNode_some (answers : Answers) (n : NodeRecord) :
    readNode answers (some n) = if answers.reads then some n else none := by
  unfold readNode Answers.reads
  cases answers.getNode with
  | none => rfl
  | some e => rfl

theorem blind_iff {answers : Answers} :
    answers.blind = true ↔ answers.writes = true ∧ answers.reads = false := by
  rw [Answers.blind, Bool.and_eq_true, Bool.not_eq_true']

/-- One heartbeat keeps the fields or, if it is blind, resets them. -/
theorem owned_heartbeatOnce (a : BeatingAgent) (answers : Answers) (n : NodeRecord) :
    ∃ n', heartbeatOnce a answers (some n) = some n' ∧
      n'.owned = if answers.blind then newlyOwned else n.owned := by
  unfold Answers.blind
  cases writes : answers.writes with
  | false => exact ⟨n, heartbeatOnce_fails writes a (some n), rfl⟩
  | true =>
      obtain ⟨hb, written⟩ := heartbeatOnce_writes writes a (some n)
      refine ⟨_, written, ?_⟩
      rw [owned_beat, readNode_some]
      cases answers.reads with
      | true => rfl
      | false => rfl

/-- A heartbeat keeps the fields of an existing record unless it is blind, or they are those
of a first registration anyway. -/
theorem heartbeat_keeps_owned_iff (a : BeatingAgent) (answers : Answers) (n : NodeRecord) :
    (∃ n', heartbeatOnce a answers (some n) = some n' ∧ n'.owned = n.owned) ↔
      (answers.writes = true → answers.reads = false → n.owned = newlyOwned) := by
  obtain ⟨n', result, fields⟩ := owned_heartbeatOnce a answers n
  rw [result]
  simp only [Option.some.injEq, exists_eq_left', fields]
  by_cases blind : answers.blind = true
  · obtain ⟨writes, notRead⟩ := blind_iff.mp blind
    rw [if_pos blind]
    constructor
    · intro kept _ _
      exact kept.symm
    · intro first
      exact (first writes notRead).symm
  · rw [if_neg blind]
    refine iff_of_true rfl fun writes notRead => ?_
    exact absurd (blind_iff.mpr ⟨writes, notRead⟩) blind

/-- A registered node with labels, a taint, a cordon and its own capacities. -/
def operatedNode : NodeRecord :=
  { firstRecord newSystem.agent with
    cordoned := true, gpus := 2, cpuAllocatable := 64000, memAllocatable := 274877906944,
    labels := AList.insert "zone" "eu" ∅, taints := [⟨"gpu", "only", "NoSchedule"⟩] }

/-- A read that times out lifts the cordon and resets labels and capacities. -/
theorem blind_heartbeat_resets :
    ∃ n', heartbeatOnce newSystem.agent ⟨.ok ⟨100, 1000, ⟨1⟩⟩, some ⟨"context deadline exceeded"⟩, none⟩
        (some operatedNode) = some n' ∧
      n'.owned = newlyOwned ∧ operatedNode.cordoned = true ∧ n'.cordoned = false ∧
        n'.taints ≠ operatedNode.taints ∧ n'.gpus ≠ operatedNode.gpus ∧
          n'.cpuAllocatable ≠ operatedNode.cpuAllocatable ∧
          operatedNode.labels.lookup "zone" = some "eu" ∧ n'.labels.lookup "zone" = none := by
  exact ⟨_, rfl, rfl, rfl, rfl, by decide, by decide, by decide, by decide, by decide⟩

/-! ## Runs -/

/-- The action is a heartbeat that writes without having read. -/
def Action.blind : Action → Bool
  | .setDrain _ => false
  | .heartbeat answers => answers.blind

theorem owned_next {s : System} {n : NodeRecord} (stored : s.stored = some n) (action : Action) :
    ∃ n', (s.next action).stored = some n' ∧
      n'.owned = if action.blind then newlyOwned else n.owned := by
  cases action with
  | setDrain drain => exact ⟨n, stored, rfl⟩
  | heartbeat answers =>
      obtain ⟨n', result, fields⟩ := owned_heartbeatOnce s.agent answers n
      refine ⟨n', ?_, fields⟩
      rw [← result, ← stored]
      rfl

/-- Through a whole run the fields stay until the first blind heartbeat, which resets them
for good. -/
theorem owned_run {s : System} {n : NodeRecord} (stored : s.stored = some n)
    (actions : List Action) :
    ∃ n', (s.run actions).stored = some n' ∧
      n'.owned = if actions.any Action.blind then newlyOwned else n.owned := by
  induction actions generalizing s n with
  | nil => exact ⟨n, stored, rfl⟩
  | cons action rest ih =>
      obtain ⟨next, nextStored, nextFields⟩ := owned_next stored action
      obtain ⟨last, lastStored, lastFields⟩ := ih nextStored
      refine ⟨last, lastStored, ?_⟩
      rw [lastFields, nextFields, List.any_cons]
      cases action.blind with
      | true =>
          cases rest.any Action.blind with
          | true => rfl
          | false => rfl
      | false => rfl

end MiniCloud.NodeAgent
