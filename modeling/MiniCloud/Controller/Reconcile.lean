import MiniCloud.Scheduler.Capacity

/-!
# The controller

`reconcileWorkload` plans a workload, stores its placements, notifies the node
agents and updates the status; `reconcileAll` does so for every workload of every
project, and goes on after an error.  Which store operations fail, and which
placements the node agents accept, is given from outside; an operation that fails
leaves the store as it is.
-/

namespace MiniCloud.Controller

open MiniCloud.State
open MiniCloud.Scheduler (Decision plan planOn)

/-- What the store operations and the node agents answer during a pass. -/
structure Env where
  listProjects : Option StoreError
  listWorkloads : String → Option StoreError
  listNodes : Base → Option StoreError
  setPlacements : Base → Option StoreError
  updateWorkload : Base → Option StoreError
  /-- The notifier, if there is one, and whether `ApplyWorkload` succeeds. -/
  notifier : Option (Workload → Placement → Bool)

/-- How a reconcile function ends. -/
inductive Ended where
  | ok
  | failed (e : StoreError)
  | panicked
  deriving DecidableEq, Repr

/-- The placement record of a planned replica. -/
def placementOf (w : Workload) (p : Scheduler.Placement) : Placement where
  base := ⟨w.base.id ++ "-" ++ p.nodeID, w.base.projectID, w.base.name ++ "-" ++ p.nodeID⟩
  workloadID := w.base.id
  nodeID := p.nodeID
  replicaIdx := p.replicaIdx
  status := "Pending"

/-- The number of placements that the node agents accept. -/
def notify (env : Env) (w : Workload) (placements : List Placement) : Nat :=
  match env.notifier with
  | none => 0
  | some applies => placements.countP (applies w)

/-- `UpdateWorkload`, whose error the caller may ignore. -/
def storeWorkload (env : Env) (s : Store) (w : Workload) : Option StoreError × Store :=
  match env.updateWorkload w.base with
  | some e => (some e, s)
  | none => (none, s.updateWorkload w)

/-- The branch for a workload of which no replica can be placed. -/
def reportUnscheduled (env : Env) (s : Store) (w : Workload) (message : String) : Store :=
  (storeWorkload env s
    { w with status := { w.status with available := false, message := message } }).2

/-- The status after the node agents were notified. -/
def withStatus (w : Workload) (ready : Nat) : Workload :=
  { w with
    status :=
      { w.status with
        readyReplicas := Int32.ofNat ready
        desiredReplicas := w.replicas
        available := decide (w.replicas ≤ Int32.ofNat ready) } }

/-- The branch that stores the placements of a decision. -/
def persist (env : Env) (s : Store) (w : Workload) (d : Decision) : Ended × Store :=
  let placements := d.placements.map (placementOf w)
  match env.setPlacements w.base with
  | some e => (.failed e, s)
  | none =>
      let s := s.setPlacements w.base.id placements
      match storeWorkload env s (withStatus w (notify env w placements)) with
      | (some e, s) => (.failed e, s)
      | (none, s) => (.ok, s)

/-- Nothing of the workload can be placed, and the decision says why. -/
def Unplaced (d : Decision) : Prop := d.unscheduled ≠ "" ∧ d.placements = []

instance (d : Decision) : Decidable (Unplaced d) := inferInstanceAs (Decidable (_ ∧ _))

def reconcileWorkload (env : Env) (s : Store) (w : Workload) : Ended × Store :=
  let nodes : Except StoreError (List Node) :=
    match env.listNodes w.base with
    | some e => .error e
    | none => .ok s.nodes
  match plan nodes w with
  | .err e => (.failed e, s)
  | .panicked => (.panicked, s)
  | .ok d =>
      if Unplaced d then (.ok, reportUnscheduled env s w d.unscheduled)
      else persist env s w d

/-- The inner loop of `reconcileAll`. -/
def reconcileEach (env : Env) (s : Store) : List Workload → Ended × Store
  | [] => (.ok, s)
  | w :: rest =>
      match reconcileWorkload env s w with
      | (.panicked, s) => (.panicked, s)
      | (_, s) => reconcileEach env s rest

/-- The outer loop of `reconcileAll`. -/
def reconcileProjects (env : Env) (s : Store) : List String → Ended × Store
  | [] => (.ok, s)
  | p :: rest =>
      match env.listWorkloads p with
      | some _ => reconcileProjects env s rest
      | none =>
          match reconcileEach env s (s.workloads p) with
          | (.panicked, s) => (.panicked, s)
          | (_, s) => reconcileProjects env s rest

def reconcileAll (env : Env) (s : Store) : Ended × Store :=
  match env.listProjects with
  | some e => (.failed e, s)
  | none => reconcileProjects env s s.projects

/-! ## One workload -/

/-- What reconciling a workload leaves as it is. -/
structure Kept (s : Store) (w : Workload) (next : Store) : Prop where
  nodes : next.nodes = s.nodes
  projects : next.projects = s.projects
  ids : ∀ project, (next.workloads project).map (fun v => v.base.id) =
    (s.workloads project).map fun v => v.base.id
  others : ∀ project, project ≠ w.base.projectID →
    next.workloads project = s.workloads project

/-- What reconciling one workload can do to the store. -/
inductive Reconciled (env : Env) (s : Store) (w : Workload) : Ended → Store → Prop where
  | unread {e : StoreError} (failed : env.listNodes w.base = some e) :
      Reconciled env s w (.failed e) s
  | panicked (planned : planOn s.nodes w = .panicked) : Reconciled env s w .panicked s
  | unplaced {d : Decision} {next : Store} (planned : planOn s.nodes w = .ok d)
      (unplaced : Unplaced d) (samePlacements : next.placements = s.placements)
      (kept : Kept s w next) : Reconciled env s w .ok next
  | unstored {d : Decision} {e : StoreError} (planned : planOn s.nodes w = .ok d)
      (placed : ¬ Unplaced d) (failed : env.setPlacements w.base = some e) :
      Reconciled env s w (.failed e) s
  | stored {d : Decision} {ended : Ended} {next : Store} (planned : planOn s.nodes w = .ok d)
      (placed : ¬ Unplaced d)
      (placements : next.placements =
        (s.setPlacements w.base.id (d.placements.map (placementOf w))).placements)
      (kept : Kept s w next) (noPanic : ended ≠ .panicked) : Reconciled env s w ended next

theorem Kept.refl (s : Store) (w : Workload) : Kept s w s :=
  ⟨rfl, rfl, fun _ => rfl, fun _ _ => rfl⟩

theorem storeWorkload_placements (env : Env) (s : Store) (w : Workload) :
    (storeWorkload env s w).2.placements = s.placements := by
  unfold storeWorkload
  split
  · rfl
  · rfl

/-- Updating a record keeps what belongs to no record of its project and ID. -/
theorem kept_storeWorkload (env : Env) (s : Store) (w : Workload) :
    Kept s w (storeWorkload env s w).2 := by
  unfold storeWorkload
  split
  · exact Kept.refl s w
  · exact ⟨rfl, rfl, s.updateWorkload_ids w, fun _ different => s.updateWorkload_ne w different⟩

theorem reconciled_reconcileWorkload (env : Env) (s : Store) (w : Workload) :
    Reconciled env s w (reconcileWorkload env s w).1 (reconcileWorkload env s w).2 := by
  unfold reconcileWorkload
  cases failed : env.listNodes w.base with
  | some e => exact .unread failed
  | none =>
      simp only [plan]
      cases planned : planOn s.nodes w with
      | err e =>
          cases Scheduler.Planned.of_planOn planned
      | panicked => exact .panicked planned
      | ok d =>
          simp only
          split
          · rename_i unplaced
            obtain ⟨nodes, projects, ids, others⟩ := kept_storeWorkload env s
              { w with status := { w.status with available := false, message := d.unscheduled } }
            exact .unplaced planned unplaced (storeWorkload_placements _ _ _)
              ⟨nodes, projects, ids, others⟩
          · rename_i placed
            unfold persist
            cases unstored : env.setPlacements w.base with
            | some e => exact .unstored planned placed unstored
            | none =>
                have placements := storeWorkload_placements env
                  (s.setPlacements w.base.id (d.placements.map (placementOf w)))
                  (withStatus w (notify env w (d.placements.map (placementOf w))))
                obtain ⟨nodes, projects, ids, others⟩ := kept_storeWorkload env
                  (s.setPlacements w.base.id (d.placements.map (placementOf w)))
                  (withStatus w (notify env w (d.placements.map (placementOf w))))
                simp only
                split
                · rename_i e next ended
                  rw [ended] at placements nodes projects ids others
                  exact .stored planned placed placements ⟨nodes, projects, ids, others⟩ (by simp)
                · rename_i next ended
                  rw [ended] at placements nodes projects ids others
                  exact .stored planned placed placements ⟨nodes, projects, ids, others⟩ (by simp)

/-! ## Stores with one project -/

/-- A store with the one project `p`. -/
def oneProject (nodes : List Node) (ws : List Workload) (placements : String → List Placement)
    (distinct : (nodes.map fun n => n.base.id).Nodup)
    (owned : ∀ w ∈ ws, w.base.projectID = "p") : Store where
  nodes := nodes
  projects := ["p"]
  workloads := fun project => if project = "p" then ws else []
  placements := placements
  owned := by
    intro project w member
    split at member
    · rename_i isP
      rw [isP, owned w member]
    · cases member
  distinctNodes := distinct
  distinctProjects := List.nodup_singleton "p"

theorem distinct_n1 : ([Scheduler.readyNode "n1" 1000 100].map fun n => n.base.id).Nodup := by
  decide

/-- No operation fails and there is no notifier. -/
def Env.calm : Env := ⟨none, fun _ => none, fun _ => none, fun _ => none, fun _ => none, none⟩

/-- The node is being drained. -/
def drained (n : Node) : Node := { n with drain := true }

end MiniCloud.Controller
