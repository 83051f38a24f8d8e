import MiniCloud.Controller.Placements
import MiniCloud.LoadBalancer.Refresh
import MiniCloud.Scheduler.Complete

/-!
# Workloads of different projects

Workloads are kept by project and ID, but placements by the workload ID alone.  The
controller and the scheduler therefore write, and the node agent and the load
balancer read, the same list for two workloads with one ID, whatever their projects.
-/

namespace MiniCloud.Controller

open MiniCloud.State
open MiniCloud.Scheduler (chosen filter maxPerNode_suitedNode mem_score passes_suitedNode planOn
  planOn_of_nonempty suitedNode)

/-- The placements of a workload are the same for all who read them. -/
structure SameFor (v : Workload) (s next : Store) : Prop where
  stored : next.placements v.base.id = s.placements v.base.id
  agent : ∀ env a walked, NodeAgent.visitWorkload env next a walked v =
    NodeAgent.visitWorkload env s a walked v
  balancer : ∀ env (svc : LoadBalancer.Service), svc.workloadID = v.base.id →
    LoadBalancer.addresses env next svc = LoadBalancer.addresses env s svc

theorem sameFor_of_stored {v : Workload} {s next : Store}
    (stored : next.placements v.base.id = s.placements v.base.id) : SameFor v s next where
  stored := stored
  agent := by
    intro env a walked
    unfold NodeAgent.visitWorkload
    rw [stored]
  balancer := by
    intro env svc isV
    rw [← isV] at stored
    exact LoadBalancer.addresses_congr stored env

/-- Reconciling a workload changes nothing that is read for a workload with another ID. -/
theorem sameFor_reconcileWorkload {w v : Workload} (different : v.base.id ≠ w.base.id) (env : Env)
    (s : Store) : SameFor v s (reconcileWorkload env s w).2 := by
  refine sameFor_of_stored ?_
  rcases (reconciled_reconcileWorkload env s w).placements with unchanged | ⟨d, changed⟩
  · rw [unchanged]
  · rw [changed, Store.setPlacements_ne _ _ different]

/-- A workload with a negative number of replicas changes no placements. -/
theorem placements_of_negative {w : Workload} (negative : w.replicas < 0) (env : Env) (s : Store) :
    (reconcileWorkload env s w).2.placements = s.placements := by
  have reconciled := reconciled_reconcileWorkload env s w
  generalize reconcileWorkload env s w = result at reconciled ⊢
  obtain ⟨ended, next⟩ := result
  cases reconciled with
  | unread failed => rfl
  | panicked planned => rfl
  | unplaced planned unplaced samePlacements kept => exact samePlacements
  | unstored planned placed failed => rfl
  | stored planned placed placements kept noPanic =>
      cases Scheduler.Planned.of_planOn planned with
      | nothing noFit =>
          exact absurd ⟨show "no node satisfies filters" ≠ "" by decide, rfl⟩ placed
      | placed fits replicas => exact absurd replicas (Int32.not_le.mpr negative)

/-! ## Two workloads of one ID -/

/-- A placement that a node agent has reported. -/
def runningOf (workloadID : String) : Placement where
  base := ⟨workloadID ++ "-n", "", ""⟩
  workloadID := workloadID
  nodeID := "n"
  replicaIdx := 0
  status := "Ready"

/-- Two projects with one workload each, and placements that are running. -/
def tenants (nodes : List Node) (v w : Workload)
    (distinct : (nodes.map fun n => n.base.id).Nodup)
    (apart : v.base.projectID ≠ w.base.projectID) : Store where
  nodes := nodes
  projects := [v.base.projectID, w.base.projectID]
  workloads := fun project =>
    if project = v.base.projectID then [v]
    else if project = w.base.projectID then [w]
    else []
  placements := fun workloadID => [runningOf workloadID]
  owned := by
    intro project u member
    split at member
    · rename_i isV
      rw [List.mem_singleton.mp member, isV]
    · split at member
      · rename_i isW
        rw [List.mem_singleton.mp member, isW]
      · cases member
  distinctNodes := distinct
  distinctProjects := by simpa using apart

/-- What is stored by a pass is not what runs. -/
theorem ne_runningOf {ps : List Placement} (pending : ∀ p ∈ ps, p.status = "Pending")
    (workloadID : String) : ps ≠ [runningOf workloadID] := by
  intro same
  have isPending := pending (runningOf workloadID) (same ▸ List.mem_cons_self)
  exact absurd isPending (show "Ready" ≠ "Pending" by decide)

/-- On a node that is suited to it a workload is planned, also if it has no replicas. -/
theorem placed_on_suitedNode {w : Workload} (replicas : 0 ≤ w.replicas) :
    ∃ d, planOn [suitedNode w] w = .ok d ∧ ¬ Unplaced d := by
  have listed : suitedNode w ∈ filter [suitedNode w] w :=
    List.mem_filter.mpr ⟨List.mem_cons_self, passes_suitedNode w⟩
  refine ⟨_, planOn_of_nonempty (List.ne_nil_of_mem listed) replicas, ?_⟩
  rintro ⟨missing, nonePlaced⟩
  have noneChosen : chosen [suitedNode w] w = [] := by simpa using nonePlaced
  rw [noneChosen] at missing
  have wanted : 0 < w.replicas.toInt.toNat := by
    by_contra noReplicas
    exact missing (if_neg noReplicas)
  exact Library.firstFit_ne_nil (mem_score.mpr listed) (maxPerNode_suitedNode w) wanted noneChosen

theorem controller_replaces {v w : Workload} (apart : v.base.projectID ≠ w.base.projectID)
    (same : v.base.id = w.base.id) (replicas : 0 ≤ w.replicas) :
    ¬ SameFor v (tenants [suitedNode w] v w (List.nodup_singleton _) apart)
      (reconcileWorkload Env.calm (tenants [suitedNode w] v w (List.nodup_singleton _) apart) w).2 := by
  intro isSame
  obtain ⟨d, planned, placed⟩ := placed_on_suitedNode replicas
  have stored := isSame.stored
  rw [stored_placements planned placed rfl rfl, same, Store.setPlacements_self] at stored
  refine ne_runningOf ?_ w.base.id stored
  intro p listed
  obtain ⟨q, _, rfl⟩ := List.mem_map.mp listed
  rfl

theorem scheduler_replaces {v w : Workload} (apart : v.base.projectID ≠ w.base.projectID)
    (same : v.base.id = w.base.id) :
    ¬ SameFor v (tenants [] v w List.nodup_nil apart)
      (Scheduler.reconcile none none (tenants [] v w List.nodup_nil apart) w).2 := by
  intro isSame
  have stored := isSame.stored
  have emptied : (Scheduler.reconcile none none (tenants [] v w List.nodup_nil apart) w).2.placements
      w.base.id = [] := Store.setPlacements_self _ _ []
  rw [same, emptied] at stored
  cases stored

/-- Reconciling a workload, in the controller and in the scheduler, never changes what is
read for a workload of another project if and only if their IDs are different.  In the
controller alone it is also enough that the number of replicas is negative. -/
theorem placements_isolated_iff {v w : Workload} (apart : v.base.projectID ≠ w.base.projectID) :
    ((∀ s : Store, v ∈ s.listed → w ∈ s.listed →
        (∀ env, SameFor v s (reconcileWorkload env s w).2) ∧
          ∀ listNodes setPlacements,
            SameFor v s (Scheduler.reconcile listNodes setPlacements s w).2) ↔
      v.base.id ≠ w.base.id) ∧
    ((∀ s : Store, v ∈ s.listed → w ∈ s.listed →
        ∀ env, SameFor v s (reconcileWorkload env s w).2) ↔
      v.base.id ≠ w.base.id ∨ w.replicas < 0) := by
  have both : ∀ nodes distinct, v ∈ (tenants nodes v w distinct apart).listed ∧
      w ∈ (tenants nodes v w distinct apart).listed := by
    intro nodes distinct
    simp [tenants, Store.listed, apart.symm]
  constructor
  · constructor
    · intro isolated same
      obtain ⟨hasV, hasW⟩ := both [] List.nodup_nil
      exact scheduler_replaces apart same ((isolated _ hasV hasW).2 none none)
    · intro different s _ _
      refine ⟨fun env => sameFor_reconcileWorkload different env s, ?_⟩
      intro listNodes setPlacements
      exact sameFor_of_stored
        (Scheduler.reconcile_placements_ne listNodes setPlacements s w different)
  · constructor
    · intro isolated
      by_contra neither
      obtain ⟨same, replicas⟩ := not_or.mp neither
      obtain ⟨hasV, hasW⟩ := both [suitedNode w] (List.nodup_singleton _)
      exact controller_replaces apart (not_not.mp same) (Int32.not_lt.mp replicas)
        (isolated _ hasV hasW Env.calm)
    · rintro (different | negative) s _ _ env
      · exact sameFor_reconcileWorkload different env s
      · exact sameFor_of_stored (congrFun (placements_of_negative negative env s) _)

/-- A workload of the project `q` with the given ID and no replicas. -/
def idleOf (id : String) : Workload :=
  { Scheduler.plainWorkload id 0 100 10 with base := ⟨id, "q", id⟩ }

theorem apart_from_q (id : String) :
    (Scheduler.plainWorkload "web" 1 100 10).base.projectID ≠ (idleOf id).base.projectID := by
  show "p" ≠ "q"
  decide

/-- The project `p` has the workload `web`, which runs; the project `q` has an idle
workload with the given ID. -/
def twoTenants (id : String) : Store :=
  tenants [Scheduler.readyNode "n1" 1000 100] (Scheduler.plainWorkload "web" 1 100 10) (idleOf id)
    distinct_n1 (apart_from_q id)

theorem placements_isolated_from_db :
    SameFor (Scheduler.plainWorkload "web" 1 100 10) (twoTenants "db")
      (reconcileWorkload Env.calm (twoTenants "db") (idleOf "db")).2 :=
  ((placements_isolated_iff (apart_from_q "db")).1.mpr (by decide) (twoTenants "db")
    (by simp [twoTenants, tenants, Store.listed])
    (by simp [twoTenants, tenants, Store.listed, idleOf, Scheduler.plainWorkload])).1 Env.calm

/-- The project `q` reconciles its own workload `web`: the placements that the project
`p` has under that ID are gone, for the node agent and for the load balancer. -/
theorem placements_shared_by_tenants :
    ((twoTenants "web").workloads "p").map (fun w => w.base.id) = ["web"] ∧
      ((twoTenants "web").workloads "q").map (fun w => w.base.id) = ["web"] ∧
      (twoTenants "web").placements "web" = [runningOf "web"] ∧
      (reconcileWorkload Env.calm (twoTenants "web") (idleOf "web")).1 = .ok ∧
      (reconcileWorkload Env.calm (twoTenants "web") (idleOf "web")).2.placements "web" = [] := by
  decide +kernel

end MiniCloud.Controller
