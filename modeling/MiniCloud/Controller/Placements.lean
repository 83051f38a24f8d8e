import MiniCloud.Controller.Reconcile
import MiniCloud.NodeAgent.Reconcile

/-!
# The placements of one workload

When no replica can be placed, `reconcileWorkload` returns before it stores the
placements, so the list of an earlier pass stays; otherwise the stored list is the
plan.  The ID of a stored placement is made of the workload and the node, so the
replicas that a plan packs on one node share an ID, and the node agent sees them as
one.
-/

namespace MiniCloud.Controller

open MiniCloud.State
open MiniCloud.Scheduler (Decision plan planOn passes filter maxPerNode replicasOn)

/-! ## The stored list -/

/-- A node that takes replicas. -/
structure Usable (n : Node) : Prop where
  schedulable : n.unschedulable = false
  notDraining : n.drain = false
  notCordoned : n.cordoned = false
  ready : n.status = "Ready"

/-- The nodes and replica indices of stored placements. -/
def pairs (ps : List Placement) : List (String × Nat) := ps.map fun p => (p.nodeID, p.replicaIdx)

/-- The nodes and replica indices of a plan. -/
def planPairs (d : Decision) : List (String × Nat) :=
  d.placements.map fun p => (p.nodeID, p.replicaIdx)

/-- The plan is empty and an earlier pass has stored placements. -/
def Stale (s : Store) (w : Workload) (d : Decision) : Prop :=
  Unplaced d ∧ s.placements w.base.id ≠ []

theorem usable_of_passes {w : Workload} {n : Node} (fits : passes w n = true) : Usable n := by
  unfold passes at fits
  simp only [Bool.and_eq_true, Bool.not_eq_true', Bool.or_eq_false_iff, decide_eq_true_eq] at fits
  obtain ⟨⟨⟨⟨⟨⟨⟨⟨schedulable, notDraining⟩, notCordoned⟩, ready⟩, _⟩, _⟩, _⟩, _⟩, _⟩ := fits
  exact ⟨schedulable, notDraining, notCordoned, ready⟩

/-- A plan uses only nodes that take replicas. -/
theorem usable_of_planned {s : Store} {w : Workload} {d : Decision}
    (planned : planOn s.nodes w = .ok d) {n : Node} (member : n ∈ s.nodes)
    (used : n.base.id ∈ d.nodeIDs) : Usable n :=
  usable_of_passes (Scheduler.passes_of_used s.distinctNodes planned member used)

theorem pairs_placementOf (w : Workload) (d : Decision) :
    pairs (d.placements.map (placementOf w)) = planPairs d := by
  unfold pairs planPairs
  rw [List.map_map]
  rfl

/-- The stored placements are those of the plan unless the plan is empty and there
were placements before; then none of them is on a node that takes no replicas. -/
theorem placements_follow_plan {env : Env} {s next : Store} {w : Workload}
    (done : reconcileWorkload env s w = (.ok, next)) :
    ∃ d, plan (.ok s.nodes) w = .ok d ∧
      (pairs (next.placements w.base.id) = planPairs d ↔ ¬ Stale s w d) ∧
      (¬ Stale s w d → ∀ p ∈ next.placements w.base.id, ∀ n ∈ next.nodes,
        n.base.id = p.nodeID → Usable n) := by
  have reconciled := reconciled_reconcileWorkload env s w
  rw [done] at reconciled
  cases reconciled with
  | @unplaced d _ planned unplaced samePlacements kept =>
      refine ⟨d, planned, ?_, ?_⟩
      · rw [samePlacements, planPairs, unplaced.2]
        simp [pairs, Stale, unplaced]
      · intro fresh p stored
        have noneBefore : s.placements w.base.id = [] := by
          by_contra before
          exact fresh ⟨unplaced, before⟩
        rw [samePlacements, noneBefore] at stored
        cases stored
  | @stored d _ _ planned placed placements kept noPanic =>
      have list : next.placements w.base.id = d.placements.map (placementOf w) := by
        rw [placements, Store.setPlacements_self]
      refine ⟨d, planned, ?_, ?_⟩
      · rw [list, pairs_placementOf]
        simp [Stale, placed]
      · intro _ p stored n member sameID
        rw [list] at stored
        obtain ⟨q, inPlan, rfl⟩ := List.mem_map.mp stored
        rw [kept.nodes] at member
        refine usable_of_planned planned member ?_
        rw [sameID]
        exact List.mem_map_of_mem inPlan

/-- A placement of the first replica on a node. -/
def firstOn (workloadID nodeID : String) : Placement :=
  placementOf (Scheduler.plainWorkload workloadID 1 100 10) ⟨nodeID, 0⟩

/-- The workload `w` is placed on `n1`, which is being drained. -/
def movable : Store :=
  oneProject [drained (Scheduler.readyNode "n1" 1000 100), Scheduler.readyNode "n2" 1000 100]
    [Scheduler.plainWorkload "w" 1 100 10]
    (fun id => if id = "w" then [firstOn "w" "n1"] else []) (by decide) (by decide)

theorem placements_follow_plan_to_second :
    ∃ next, reconcileWorkload Env.calm movable (Scheduler.plainWorkload "w" 1 100 10) =
        (.ok, next) ∧
      pairs (next.placements "w") = [("n2", 0)] ∧
      ∀ p ∈ next.placements "w", ∀ n ∈ next.nodes, n.base.id = p.nodeID → Usable n := by
  have ended : (reconcileWorkload Env.calm movable
      (Scheduler.plainWorkload "w" 1 100 10)).1 = .ok := by decide +kernel
  have computed : plan (.ok movable.nodes) (Scheduler.plainWorkload "w" 1 100 10) =
      .ok ⟨"w", [⟨"n2", 0⟩], ""⟩ := by decide +kernel
  have done : reconcileWorkload Env.calm movable (Scheduler.plainWorkload "w" 1 100 10) =
      (.ok, (reconcileWorkload Env.calm movable (Scheduler.plainWorkload "w" 1 100 10)).2) :=
    Prod.ext ended rfl
  obtain ⟨d, planned, follows, usable⟩ := placements_follow_plan done
  rw [computed] at planned
  cases planned
  have fresh : ¬ Stale movable (Scheduler.plainWorkload "w" 1 100 10)
      ⟨"w", [⟨"n2", 0⟩], ""⟩ := fun stale => absurd stale.1.1 (by decide)
  exact ⟨_, done, follows.mpr fresh, usable fresh⟩

/-- The only node of the workload `w` is being drained. -/
def stranded : Store :=
  oneProject [drained (Scheduler.readyNode "n1" 1000 100)]
    [Scheduler.plainWorkload "w" 1 100 10]
    (fun id => if id = "w" then [firstOn "w" "n1"] else []) (by decide) (by decide)

/-- The plan is empty, and the placement stays on the draining node. -/
theorem placement_stays_on_drained_node :
    (reconcileWorkload Env.calm stranded (Scheduler.plainWorkload "w" 1 100 10)).1 = .ok ∧
      plan (.ok stranded.nodes) (Scheduler.plainWorkload "w" 1 100 10) =
        .ok ⟨"w", [], "no node satisfies filters"⟩ ∧
      pairs ((reconcileWorkload Env.calm stranded
        (Scheduler.plainWorkload "w" 1 100 10)).2.placements "w") = [("n1", 0)] ∧
      (reconcileWorkload Env.calm stranded
        (Scheduler.plainWorkload "w" 1 100 10)).2.nodes.map (fun n => (n.base.id, n.drain)) =
          [("n1", true)] := by
  decide +kernel

/-! ## The IDs and the node agent -/

theorem Reconciled.kept {env : Env} {s next : Store} {w : Workload} {ended : Ended}
    (reconciled : Reconciled env s w ended next) : Kept s w next := by
  cases reconciled with
  | unread failed => exact Kept.refl s w
  | panicked planned => exact Kept.refl s w
  | unplaced planned unplaced samePlacements kept => exact kept
  | unstored planned placed failed => exact Kept.refl s w
  | stored planned placed placements kept noPanic => exact kept

/-- Reconciling a workload keeps the list of workload IDs. -/
theorem Kept.listed {s next : Store} {w : Workload} (kept : Kept s w next) :
    (next.listed.map fun v => v.base.id) = s.listed.map fun v => v.base.id := by
  unfold Store.listed
  rw [List.map_flatMap, List.map_flatMap, kept.projects]
  exact List.flatMap_congr fun project _ => kept.ids project

/-- Reconciling a workload leaves all placements, or stores those of its plan. -/
theorem Reconciled.placements {env : Env} {s next : Store} {w : Workload} {ended : Ended}
    (reconciled : Reconciled env s w ended next) :
    next.placements = s.placements ∨ ∃ d : Decision,
      next.placements =
        (s.setPlacements w.base.id (d.placements.map (placementOf w))).placements := by
  cases reconciled with
  | unread failed => exact Or.inl rfl
  | panicked planned => exact Or.inl rfl
  | unplaced planned unplaced samePlacements kept => exact Or.inl samePlacements
  | unstored planned placed failed => exact Or.inl rfl
  | @stored d _ _ planned placed placements kept noPanic => exact Or.inr ⟨d, placements⟩

/-- What is stored for a workload when its plan places something. -/
theorem stored_placements {env : Env} {s : Store} {w : Workload} {d : Decision}
    (planned : planOn s.nodes w = .ok d) (placed : ¬ Unplaced d)
    (read : env.listNodes w.base = none) (stored : env.setPlacements w.base = none) :
    (reconcileWorkload env s w).2.placements =
      (s.setPlacements w.base.id (d.placements.map (placementOf w))).placements := by
  have reconciled := reconciled_reconcileWorkload env s w
  generalize reconcileWorkload env s w = result at reconciled ⊢
  obtain ⟨ended, next⟩ := result
  cases reconciled with
  | unread failed =>
      rw [read] at failed
      cases failed
  | panicked panicked =>
      rw [planned] at panicked
      cases panicked
  | unplaced same unplaced samePlacements kept =>
      rw [planned] at same
      cases same
      exact absurd unplaced placed
  | unstored same _ failed =>
      rw [stored] at failed
      cases failed
  | stored same _ placements kept noPanic =>
      rw [planned] at same
      cases same
      exact placements

/-- Reconciling a workload files the placements that it stores. -/
theorem filed_reconcileWorkload {env : Env} {s : Store} (filed : s.Filed) (w : Workload) :
    (reconcileWorkload env s w).2.Filed := by
  intro workloadID p stored
  rcases (reconciled_reconcileWorkload env s w).placements with unchanged | ⟨d, changed⟩
  · rw [unchanged] at stored
    exact filed workloadID p stored
  · rw [changed] at stored
    by_cases same : workloadID = w.base.id
    · subst same
      rw [Store.setPlacements_self] at stored
      obtain ⟨q, _, rfl⟩ := List.mem_map.mp stored
      exact ⟨rfl, rfl⟩
    · rw [Store.setPlacements_ne _ _ same] at stored
      exact filed workloadID p stored

/-- The IDs of the stored placements are as distinct as the nodes of the plan. -/
theorem nodup_ids_iff (w : Workload) (d : Decision) :
    ((d.placements.map (placementOf w)).map fun p => p.base.id).Nodup ↔ d.nodeIDs.Nodup := by
  have ids : (d.placements.map (placementOf w)).map (fun p => p.base.id) =
      d.nodeIDs.map fun nodeID => w.base.id ++ "-" ++ nodeID := by
    unfold Decision.nodeIDs
    rw [List.map_map, List.map_map]
    rfl
  have injective : Function.Injective fun nodeID => w.base.id ++ "-" ++ nodeID := by
    intro first second same
    simpa using same
  rw [ids, List.nodup_map_iff injective]

/-- A plan uses no node twice when no node is left two replicas. -/
theorem nodup_nodeIDs_iff {s : Store} {w : Workload} {d : Decision}
    (planned : planOn s.nodes w = .ok d) :
    d.nodeIDs.Nodup ↔ ∀ n ∈ s.nodes, replicasOn s.nodes w n ≤ 1 := by
  rw [List.nodup_iff_count_le_one]
  constructor
  · intro atMost n member
    rw [← Scheduler.count_nodeIDs s.distinctNodes planned member]
    exact atMost n.base.id
  · intro atMost nodeID
    by_cases used : nodeID ∈ d.nodeIDs
    · rw [Scheduler.nodeIDs_of_planOn planned] at used
      obtain ⟨n, isChosen, rfl⟩ := List.mem_map.mp used
      have member := (Scheduler.passes_of_chosen isChosen).1
      rw [Scheduler.count_nodeIDs s.distinctNodes planned member]
      exact atMost n member
    · rw [List.count_eq_zero.mpr used]
      exact Nat.zero_le 1

/-- At most one replica of the workload can be placed on a node. -/
def Spread (nodes : List Node) (w : Workload) : Prop :=
  w.replicas ≤ 1 ∨ ∀ n ∈ filter nodes w, maxPerNode w n ≤ 1

theorem replicasOn_of_spread {nodes : List Node} {w : Workload} (spread : Spread nodes w)
    {n : Node} (member : n ∈ nodes) : replicasOn nodes w n ≤ 1 := by
  unfold replicasOn
  split
  · rename_i fits
    rcases spread with single | quota
    · have atMostOne : w.replicas.toInt ≤ 1 := by simpa using Int32.le_iff_toInt_le.mp single
      omega
    · exact (Nat.min_le_left _ _).trans (quota n (List.mem_filter.mpr ⟨member, fits⟩))
  · exact Nat.zero_le 1

theorem placedOn_of_stored {env : Env} {s : Store} {w : Workload} {d : Decision}
    (planned : planOn s.nodes w = .ok d) (placed : ¬ Unplaced d)
    (read : env.listNodes w.base = none) (stored : env.setPlacements w.base = none)
    (nodeID : String) :
    (reconcileWorkload env s w).2.placedOn w.base.id nodeID = d.nodeIDs.count nodeID := by
  unfold Store.placedOn
  rw [stored_placements planned placed read stored, Store.setPlacements_self, List.map_map]
  rfl

/-- The stored IDs are distinct, and every node agent counts as many placements of
the workload as the plan puts on its node, if and only if at most one replica is left for
each node; so it is for a workload that can have only one replica on a node. -/
theorem ids_distinct_iff_spread {env : Env} {s : Store} {w : Workload} {d : Decision}
    (filed : s.Filed) (listed : w ∈ s.listed) (planned : plan (.ok s.nodes) w = .ok d)
    (placed : ¬ Unplaced d) (read : env.listNodes w.base = none)
    (stored : env.setPlacements w.base = none) :
    ((((reconcileWorkload env s w).2.placements w.base.id).map fun p => p.base.id).Nodup ∧
        (∀ (agentEnv : NodeAgent.Env) (a : NodeAgent.Agent), agentEnv.NoFault →
          (NodeAgent.walk agentEnv (reconcileWorkload env s w).2 a).entriesOf w.base.id =
            d.nodeIDs.count a.nodeID) ↔
      ∀ n ∈ s.nodes, replicasOn s.nodes w n ≤ 1) ∧
    (Spread s.nodes w → ∀ n ∈ s.nodes, replicasOn s.nodes w n ≤ 1) := by
  refine ⟨?_, fun spread n member => replicasOn_of_spread spread member⟩
  have kept := (reconciled_reconcileWorkload env s w).kept
  have stillListed : w.base.id ∈ (reconcileWorkload env s w).2.listed.map fun v => v.base.id := by
    rw [kept.listed]
    exact List.mem_map_of_mem listed
  rw [stored_placements planned placed read stored, Store.setPlacements_self, nodup_ids_iff,
    ← nodup_nodeIDs_iff planned]
  constructor
  · exact fun both => both.1
  · intro distinct
    refine ⟨distinct, ?_⟩
    intro agentEnv a noFault
    rw [NodeAgent.entriesOf_walk noFault (filed_reconcileWorkload filed w) a stillListed,
      placedOn_of_stored planned placed read stored]
    exact Nat.min_eq_right (List.nodup_iff_count_le_one.mp distinct a.nodeID)

/-- A workload with two replicas that keep apart. -/
def apart : Workload := { Scheduler.plainWorkload "w" 2 100 10 with antiAffinity := ["w"] }

def apartStore : Store :=
  oneProject [Scheduler.readyNode "n1" 1000 100, Scheduler.readyNode "n2" 1000 100] [apart]
    (fun _ => []) (by decide) (by decide)

theorem ids_distinct_when_apart :
    plan (.ok apartStore.nodes) apart = .ok ⟨"w", [⟨"n1", 0⟩, ⟨"n2", 1⟩], ""⟩ ∧
      (((reconcileWorkload Env.calm apartStore apart).2.placements "w").map
        fun p => p.base.id).Nodup ∧
      ∀ (agentEnv : NodeAgent.Env) (a : NodeAgent.Agent), agentEnv.NoFault →
        (NodeAgent.walk agentEnv (reconcileWorkload Env.calm apartStore apart).2 a).entriesOf "w" =
          ["n1", "n2"].count a.nodeID := by
  have planned : plan (.ok apartStore.nodes) apart =
      .ok ⟨"w", [⟨"n1", 0⟩, ⟨"n2", 1⟩], ""⟩ := by decide +kernel
  have filed : apartStore.Filed := fun _ _ stored => absurd stored (List.not_mem_nil)
  have spread : Spread apartStore.nodes apart := Or.inr (by decide)
  obtain ⟨distinct, ofSpread⟩ := ids_distinct_iff_spread filed List.mem_cons_self planned
    (by decide) (show Env.calm.listNodes apart.base = none from rfl) rfl
  exact ⟨planned, distinct.mpr (ofSpread spread)⟩

/-- A workload with two replicas that fit one node. -/
def packed : Workload := Scheduler.plainWorkload "w" 2 100 10

def packedStore : Store :=
  oneProject [Scheduler.readyNode "n1" 1000 100] [packed] (fun _ => []) distinct_n1 (by decide)

/-- Two replicas are placed on one node under the same ID, and the node agent has one
entry for them. -/
theorem packed_replicas_share_id :
    plan (.ok packedStore.nodes) packed = .ok ⟨"w", [⟨"n1", 0⟩, ⟨"n1", 1⟩], ""⟩ ∧
      (((reconcileWorkload Env.calm packedStore packed).2.placements "w").map
        fun p => p.base.id) = ["w-n1", "w-n1"] ∧
      (NodeAgent.walk ⟨none, fun _ => none, fun _ => none, []⟩
        (reconcileWorkload Env.calm packedStore packed).2 ⟨"n1", true⟩).entriesOf "w" = 1 := by
  decide +kernel

end MiniCloud.Controller
