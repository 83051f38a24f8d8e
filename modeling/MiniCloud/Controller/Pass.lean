import MiniCloud.Controller.Placements

/-!
# A pass over all workloads

Every workload is planned against the same node records: the pass stores placements
and never the amounts that they take.  What the placements of all workloads ask of a
node is therefore the sum of what each plan puts there as if it were the only one.
-/

namespace MiniCloud.Controller

open MiniCloud.State
open MiniCloud.Scheduler (Decision plan planOn filter chosen replicasOn)

/-- No store operation fails. -/
structure Env.NoFault (env : Env) : Prop where
  listProjects : env.listProjects = none
  listWorkloads : ∀ p, env.listWorkloads p = none
  listNodes : ∀ w, env.listNodes w = none
  setPlacements : ∀ w, env.setPlacements w = none
  updateWorkload : ∀ w, env.updateWorkload w = none

/-! ## The pass as one loop -/

/-- The loop stops at a panic, and goes on after any other end. -/
theorem reconcileEach_cons (env : Env) (s : Store) (w : Workload) (rest : List Workload) :
    reconcileEach env s (w :: rest) =
      if (reconcileWorkload env s w).1 = .panicked then
        (.panicked, (reconcileWorkload env s w).2)
      else reconcileEach env (reconcileWorkload env s w).2 rest := by
  simp only [reconcileEach]
  generalize reconcileWorkload env s w = result
  obtain ⟨ended, next⟩ := result
  cases ended with
  | ok => rfl
  | failed e => rfl
  | panicked => rfl

theorem reconcileEach_append (env : Env) (s : Store) (before after : List Workload) :
    reconcileEach env s (before ++ after) =
      match reconcileEach env s before with
      | (.panicked, s) => (.panicked, s)
      | (_, s) => reconcileEach env s after := by
  induction before generalizing s with
  | nil => rfl
  | cons w rest ih =>
      rw [List.cons_append, reconcileEach_cons, reconcileEach_cons]
      split
      · rfl
      · exact ih _

/-- Reconciling the workloads of one project leaves those of the others. -/
theorem reconcileEach_workloads (env : Env) (s : Store) {ws : List Workload} {project : String}
    (others : ∀ w ∈ ws, w.base.projectID ≠ project) :
    (reconcileEach env s ws).2.workloads project = s.workloads project := by
  induction ws generalizing s with
  | nil => rfl
  | cons w rest ih =>
      have kept := (reconciled_reconcileWorkload env s w).kept.others project
        (Ne.symm (others w List.mem_cons_self))
      rw [reconcileEach_cons]
      split
      · exact kept
      · exact (ih _ fun v member => others v (List.mem_cons_of_mem w member)).trans kept

/-- Without faults the two loops visit the workloads that were listed at the start. -/
theorem reconcileProjects_eq {env : Env} (noFault : env.NoFault) (s : Store)
    {projects : List String} (distinct : projects.Nodup) :
    reconcileProjects env s projects = reconcileEach env s (projects.flatMap s.workloads) := by
  induction projects generalizing s with
  | nil => rfl
  | cons p rest ih =>
      obtain ⟨fresh, distinctRest⟩ := List.nodup_cons.mp distinct
      have unchanged : ∀ other ∈ rest,
          (reconcileEach env s (s.workloads p)).2.workloads other = s.workloads other := by
        intro other member
        refine reconcileEach_workloads env s ?_
        intro w owned isOther
        rw [s.owned p w owned] at isOther
        exact fresh (isOther ▸ member)
      rw [List.flatMap_cons, reconcileEach_append]
      unfold reconcileProjects
      rw [noFault.listWorkloads]
      simp only
      generalize reconcileEach env s (s.workloads p) = result at unchanged ⊢
      obtain ⟨ended, next⟩ := result
      have sameList : rest.flatMap next.workloads = rest.flatMap s.workloads :=
        List.flatMap_congr unchanged
      cases ended with
      | ok => rw [← sameList]; exact ih next distinctRest
      | failed e => rw [← sameList]; exact ih next distinctRest
      | panicked => rfl

/-! ## What a pass leaves on a node -/

/-- The workloads of a list with the given ID for which some node passes the filter. -/
def planning (nodes : List Node) (ws : List Workload) (workloadID : String) : List Workload :=
  ws.filter fun w => w.base.id = workloadID ∧ filter nodes w ≠ []

/-- The placements on a node that the workloads of a list leave under an ID: the
replicas of the last one that is planned or, without one, those that were stored. -/
def leftOn (s : Store) (n : Node) (ws : List Workload) (workloadID : String) : Nat :=
  match (planning s.nodes ws workloadID).getLast? with
  | some w => replicasOn s.nodes w n
  | none => s.placedOn workloadID n.base.id

theorem leftOn_cons (s : Store) (n : Node) (w : Workload) (rest : List Workload)
    (workloadID : String) :
    leftOn s n (w :: rest) workloadID =
      match (planning s.nodes rest workloadID).getLast? with
      | some v => replicasOn s.nodes v n
      | none => leftOn s n [w] workloadID := by
  unfold leftOn planning
  by_cases planned : w.base.id = workloadID ∧ filter s.nodes w ≠ []
  · rw [List.filter_cons_of_pos (by simpa using planned),
      List.filter_cons_of_pos (by simpa using planned), List.getLast?_cons]
    cases (rest.filter _).getLast? with
    | none => rfl
    | some v => rfl
  · rw [List.filter_cons_of_neg (by simpa using planned),
      List.filter_cons_of_neg (by simpa using planned)]
    cases (rest.filter _).getLast? with
    | none => rfl
    | some v => rfl

theorem filter_eq_nil_of_unplaced {nodes : List Node} {w : Workload} {d : Decision}
    (request : 0 ≤ w.cpuMillicores) (planned : planOn nodes w = .ok d) (unplaced : Unplaced d) :
    filter nodes w = [] := by
  cases Scheduler.Planned.of_planOn planned with
  | nothing noFit => exact noFit
  | placed fits replicas =>
      obtain ⟨missing, nonePlaced⟩ := unplaced
      have noneChosen : chosen nodes w = [] := by simpa using nonePlaced
      rw [noneChosen] at missing
      have wanted : 0 < w.replicas.toInt.toNat := by
        by_contra noReplicas
        exact missing (if_neg noReplicas)
      exact absurd noneChosen (Scheduler.chosen_ne_nil request fits wanted)

theorem filter_ne_nil_of_placed {nodes : List Node} {w : Workload} {d : Decision}
    (planned : planOn nodes w = .ok d) (placed : ¬ Unplaced d) : filter nodes w ≠ [] := by
  cases Scheduler.Planned.of_planOn planned with
  | nothing noFit =>
      have reason : "no node satisfies filters" ≠ "" := by decide
      exact absurd ⟨reason, rfl⟩ placed
  | placed fits replicas => exact fits

/-- Reconciling a workload leaves on a node what its plan puts there. -/
theorem placedOn_step {env : Env} (noFault : env.NoFault) {s next : Store} {w : Workload}
    {ended : Ended} (request : 0 ≤ w.cpuMillicores) (reconciled : Reconciled env s w ended next)
    (noPanic : ended ≠ .panicked) {n : Node} (member : n ∈ s.nodes) (workloadID : String) :
    next.placedOn workloadID n.base.id = leftOn s n [w] workloadID := by
  unfold leftOn planning
  cases reconciled with
  | unread failed =>
      rw [noFault.listNodes] at failed
      cases failed
  | panicked planned => exact absurd rfl noPanic
  | unplaced planned unplaced samePlacements kept =>
      have noFit := filter_eq_nil_of_unplaced request planned unplaced
      rw [List.filter_cons_of_neg (by simp [noFit])]
      unfold Store.placedOn
      rw [samePlacements]
      rfl
  | unstored planned placed failed =>
      rw [noFault.setPlacements] at failed
      cases failed
  | @stored d _ _ planned placed placements kept _ =>
      have fits := filter_ne_nil_of_placed planned placed
      unfold Store.placedOn
      rw [placements]
      by_cases same : w.base.id = workloadID
      · subst same
        rw [List.filter_cons_of_pos (by simp [fits]), Store.setPlacements_self, List.map_map]
        exact Scheduler.count_nodeIDs s.distinctNodes planned member
      · rw [List.filter_cons_of_neg (by simp [same]), Store.setPlacements_ne _ _ (Ne.symm same)]
        rfl

/-- The loop leaves on a node what the plans of its workloads put there. -/
theorem placedOn_reconcileEach {env : Env} (noFault : env.NoFault) {s next : Store}
    {ws : List Workload} (requests : ∀ w ∈ ws, 0 ≤ w.cpuMillicores)
    (done : reconcileEach env s ws = (.ok, next)) {n : Node} (member : n ∈ s.nodes)
    (workloadID : String) : next.placedOn workloadID n.base.id = leftOn s n ws workloadID := by
  -- the nodes stay, so the later workloads are planned as if the earlier ones were not there
  induction ws generalizing s with
  | nil =>
      cases done
      rfl
  | cons w rest ih =>
      have reconciled := reconciled_reconcileWorkload env s w
      have noPanic : (reconcileWorkload env s w).1 ≠ .panicked := by
        intro panicked
        rw [reconcileEach_cons, if_pos panicked] at done
        cases done
      rw [reconcileEach_cons, if_neg noPanic] at done
      have sameNodes := reconciled.kept.nodes
      have first := placedOn_step noFault (requests w List.mem_cons_self) reconciled noPanic member
        workloadID
      rw [ih (fun v later => requests v (List.mem_cons_of_mem w later)) done (sameNodes ▸ member),
        leftOn_cons, ← first, leftOn, sameNodes]

/-! ## The load of a node -/

/-- What the workloads ask of a resource with the given numbers of replicas. -/
def load (s : Store) (request : Workload → Int64) (replicas : String → Nat) : Int :=
  (s.listed.map fun w => (request w).toInt * replicas w.base.id).sum

/-- The placements of all workloads are within what each node can allocate. -/
def WithinNodes (s next : Store) : Prop :=
  ∀ n ∈ s.nodes,
    load s Workload.cpuMillicores (fun id => next.placedOn id n.base.id) ≤
        n.cpuAllocatable.toInt ∧
      load s Workload.memoryBytes (fun id => next.placedOn id n.base.id) ≤ n.memAllocatable.toInt

/-- After a pass without faults the placements of all workloads fit the nodes if and only
if the replicas do that each workload leaves on a node when it is planned alone. -/
theorem pass_within_capacity_iff {env : Env} (noFault : env.NoFault) {s next : Store}
    (done : reconcileAll env s = (.ok, next))
    (cpuRequests : ∀ w ∈ s.listed, 0 ≤ w.cpuMillicores) :
    WithinNodes s next ↔ ∀ n ∈ s.nodes,
      load s Workload.cpuMillicores (leftOn s n s.listed) ≤ n.cpuAllocatable.toInt ∧
        load s Workload.memoryBytes (leftOn s n s.listed) ≤ n.memAllocatable.toInt := by
  have visited : reconcileEach env s s.listed = (.ok, next) := by
    unfold reconcileAll at done
    rw [noFault.listProjects] at done
    rw [← done]
    exact (reconcileProjects_eq noFault s s.distinctProjects).symm
  refine forall₂_congr fun n member => ?_
  have left : (fun id => next.placedOn id n.base.id) = leftOn s n s.listed :=
    funext (placedOn_reconcileEach noFault cpuRequests visited member)
  rw [left]

/-- Two workloads with one replica each on a node with 1000 millicores. -/
def pairOn (cpu : Int64) : Store :=
  oneProject [Scheduler.readyNode "n1" 1000 100]
    [Scheduler.plainWorkload "w1" 1 cpu 10, Scheduler.plainWorkload "w2" 1 cpu 10]
    (fun _ => []) distinct_n1 (by simp [Scheduler.plainWorkload])

theorem pass_within_capacity_of_pair :
    ∃ next, reconcileAll Env.calm (pairOn 400) = (.ok, next) ∧ WithinNodes (pairOn 400) next := by
  have ended : (reconcileAll Env.calm (pairOn 400)).1 = .ok := by decide +kernel
  have done : reconcileAll Env.calm (pairOn 400) =
      (.ok, (reconcileAll Env.calm (pairOn 400)).2) := Prod.ext ended rfl
  have noFault : Env.calm.NoFault :=
    ⟨rfl, fun _ => rfl, fun _ => rfl, fun _ => rfl, fun _ => rfl⟩
  exact ⟨_, done, (pass_within_capacity_iff noFault done (by decide)).mpr (by decide +kernel)⟩

/-- Both workloads are planned on the whole node. -/
theorem pass_overcommits_cpu :
    ∃ next, reconcileAll Env.calm (pairOn 600) = (.ok, next) ∧
      load (pairOn 600) Workload.cpuMillicores (fun id => next.placedOn id "n1") = 1200 ∧
      (pairOn 600).nodes.map (fun n => (n.cpuAllocatable, n.cpuAllocated)) = [(1000, 0)] ∧
      ¬ WithinNodes (pairOn 600) next := by
  have asked : load (pairOn 600) Workload.cpuMillicores
      (fun id => (reconcileAll Env.calm (pairOn 600)).2.placedOn id "n1") = 1200 := by
    decide +kernel
  refine ⟨_, Prod.ext (by decide +kernel) rfl, asked, by decide +kernel, fun within => ?_⟩
  have fits := (within (Scheduler.readyNode "n1" 1000 100) List.mem_cons_self).1
  exact absurd (asked.symm.trans_le fits) (by decide)

end MiniCloud.Controller
