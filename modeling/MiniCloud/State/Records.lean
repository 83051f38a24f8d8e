import Mathlib.Data.List.AList

/-!
# The records of the cluster

The records that the scheduler, the controller and the node agents keep in
`state.Store`, with the fields that they read or write.  The package `state` is
not part of the repository.  Its contents are a structure whose fields say what is
assumed of them (`owned`, `distinctNodes`, `distinctProjects`): a read returns what
was stored last, nodes and projects are kept by ID, workloads by project and ID, and
placements by the workload ID.  A call that returns an error leaves the contents as
they are.  Where less is known, the methods are a parameter (`Methods`).
-/

namespace MiniCloud.State

/-- A string map. -/
abbrev Labels := AList fun _ : String => String

/-- The value of a map at a key, empty for a missing one. -/
def Labels.get (labels : Labels) (key : String) : String := (labels.lookup key).getD ""

structure Base where
  id : String
  projectID : String
  name : String
  deriving DecidableEq, Repr

structure Taint where
  key : String
  value : String
  effect : String
  deriving DecidableEq, Repr

structure Node where
  base : Base
  status : String
  unschedulable : Bool
  drain : Bool
  cordoned : Bool
  cpuAllocatable : Int64
  cpuAllocated : Int64
  memAllocatable : Int64
  memAllocated : Int64
  gpus : Int64
  labels : Labels
  taints : List Taint

structure WorkloadStatus where
  available : Bool
  message : String
  readyReplicas : Int32
  desiredReplicas : Int32
  deriving DecidableEq, Repr

structure Workload where
  base : Base
  replicas : Int32
  cpuMillicores : Int64
  memoryBytes : Int64
  gpus : Int64
  nodeSelector : Labels
  tolerations : List String
  antiAffinity : List String
  status : WorkloadStatus

structure Placement where
  base : Base
  workloadID : String
  nodeID : String
  replicaIdx : Nat
  status : String
  deriving DecidableEq, Repr

/-- The content of the store: the nodes, the IDs of the projects, the workloads by
project, and the placements by workload ID. -/
structure Store where
  nodes : List Node
  projects : List String
  workloads : String → List Workload
  placements : String → List Placement
  owned : ∀ project, ∀ w ∈ workloads project, w.base.projectID = project
  distinctNodes : (nodes.map fun n => n.base.id).Nodup
  distinctProjects : projects.Nodup

/-- An error that a store operation reports. -/
structure StoreError where
  message : String
  deriving DecidableEq, Repr

namespace Store

def setPlacements (s : Store) (workloadID : String) (ps : List Placement) : Store :=
  { s with placements := Function.update s.placements workloadID ps }

/-- The workloads of a project may be replaced by others of the project. -/
theorem owned_update (s : Store) {project : String} {ws : List Workload}
    (own : ∀ w ∈ ws, w.base.projectID = project) (other : String) :
    ∀ w ∈ Function.update s.workloads project ws other, w.base.projectID = other := by
  intro stored member
  by_cases same : other = project
  · subst same
    rw [Function.update_self] at member
    exact own stored member
  · rw [Function.update_of_ne same] at member
    exact s.owned other stored member

/-- Replace the record with the same project and ID. -/
def updateWorkload (s : Store) (w : Workload) : Store :=
  { s with
    workloads := Function.update s.workloads w.base.projectID
      ((s.workloads w.base.projectID).map fun old => if old.base.id = w.base.id then w else old)
    owned := by
      refine s.owned_update fun stored member => ?_
      obtain ⟨old, isOld, rfl⟩ := List.mem_map.mp member
      split
      · rfl
      · exact s.owned _ old isOld }

@[simp]
theorem setPlacements_self (s : Store) (workloadID : String) (ps : List Placement) :
    (s.setPlacements workloadID ps).placements workloadID = ps :=
  Function.update_self _ _ _

theorem setPlacements_ne (s : Store) {workloadID other : String} (ps : List Placement)
    (different : other ≠ workloadID) :
    (s.setPlacements workloadID ps).placements other = s.placements other :=
  Function.update_of_ne different _ _

/-- An update keeps the IDs of the workloads. -/
theorem updateWorkload_ids (s : Store) (w : Workload) (project : String) :
    ((s.updateWorkload w).workloads project).map (fun v => v.base.id) =
      (s.workloads project).map fun v => v.base.id := by
  by_cases same : project = w.base.projectID
  · subst same
    simp only [updateWorkload, Function.update_self, List.map_map]
    refine List.map_congr_left ?_
    intro old _
    by_cases sameID : old.base.id = w.base.id
    · simp [sameID]
    · simp [sameID]
  · simp only [updateWorkload, Function.update_of_ne same]

theorem updateWorkload_ne (s : Store) (w : Workload) {project : String}
    (different : project ≠ w.base.projectID) :
    (s.updateWorkload w).workloads project = s.workloads project :=
  Function.update_of_ne different _ _

/-! ## Workloads by project and ID -/

def getWorkload (s : Store) (projectID id : String) : Option Workload :=
  (s.workloads projectID).find? fun w => w.base.id = id

def deleteWorkload (s : Store) (projectID id : String) : Store :=
  { s with
    workloads := Function.update s.workloads projectID
      ((s.workloads projectID).filter fun w => w.base.id ≠ id)
    owned := s.owned_update fun w member => s.owned projectID w (List.mem_of_mem_filter member) }

/-- Create the record, or replace the one with the same project and ID. -/
def saveWorkload (s : Store) (w : Workload) : Store :=
  { s with
    workloads := Function.update s.workloads w.base.projectID
      (w :: (s.workloads w.base.projectID).filter fun old => old.base.id ≠ w.base.id)
    owned := by
      refine s.owned_update fun stored member => ?_
      rcases List.mem_cons.mp member with rfl | isOld
      · rfl
      · exact s.owned _ stored (List.mem_of_mem_filter isOld) }

variable {s : Store} {w : Workload} {projectID id : String}

/-- The record found is the one that was asked for. -/
theorem base_of_getWorkload (found : s.getWorkload projectID id = some w) :
    w.base.projectID = projectID ∧ w.base.id = id := by
  have asked : decide (w.base.id = id) = true :=
    List.find?_some (p := fun v : Workload => decide (v.base.id = id)) found
  exact ⟨s.owned projectID w (List.mem_of_find?_eq_some found), of_decide_eq_true asked⟩

theorem getWorkload_update_self (found : (s.getWorkload w.base.projectID w.base.id).isSome = true) :
    (s.updateWorkload w).getWorkload w.base.projectID w.base.id = some w := by
  unfold getWorkload at found
  simp only [getWorkload, updateWorkload, Function.update_self]
  generalize s.workloads w.base.projectID = ws at found
  induction ws with
  | nil => cases found
  | cons first rest ih =>
      by_cases same : first.base.id = w.base.id
      · simp [same]
      · simp only [List.map_cons, same, if_false, decide_false, Bool.false_eq_true, not_false_eq_true,
          List.find?_cons_of_neg] at found ⊢
        exact ih found

/-- A write to one record is not seen at another. -/
theorem find_eq_of_other {ws ws' : List Workload}
    (same : ws'.filter (fun w => w.base.id = id) = ws.filter fun w => w.base.id = id) :
    ws'.find? (fun w => w.base.id = id) = ws.find? fun w => w.base.id = id := by
  rw [← List.head?_filter, ← List.head?_filter, same]

theorem getWorkload_update_ne (other : (projectID, id) ≠ (w.base.projectID, w.base.id)) :
    (s.updateWorkload w).getWorkload projectID id = s.getWorkload projectID id := by
  by_cases same : projectID = w.base.projectID
  · subst same
    have otherID : w.base.id ≠ id := fun sameID => other (by rw [sameID])
    simp only [getWorkload, updateWorkload, Function.update_self]
    apply find_eq_of_other
    generalize s.workloads w.base.projectID = ws
    induction ws with
    | nil => rfl
    | cons first rest ih =>
        by_cases replaced : first.base.id = w.base.id
        · simp only [List.map_cons, replaced, if_true, List.filter_cons, otherID, decide_false,
            Bool.false_eq_true, if_false, ih]
        · simp only [List.map_cons, replaced, if_false, List.filter_cons, ih]
  · simp only [getWorkload, updateWorkload, Function.update_of_ne same]

theorem getWorkload_delete_self : (s.deleteWorkload projectID id).getWorkload projectID id = none := by
  simp [getWorkload, deleteWorkload]

theorem getWorkload_delete_ne {project deleted : String}
    (other : (projectID, id) ≠ (project, deleted)) :
    (s.deleteWorkload project deleted).getWorkload projectID id = s.getWorkload projectID id := by
  by_cases same : projectID = project
  · subst same
    have otherID : id ≠ deleted := fun sameID => other (by rw [sameID])
    simp only [getWorkload, deleteWorkload, Function.update_self]
    apply find_eq_of_other
    rw [List.filter_filter]
    refine List.filter_congr ?_
    intro v _
    by_cases asked : v.base.id = id
    · simp [asked, otherID]
    · simp [asked]
  · simp only [getWorkload, deleteWorkload, Function.update_of_ne same]

theorem getWorkload_save_self :
    (s.saveWorkload w).getWorkload w.base.projectID w.base.id = some w := by
  simp [getWorkload, saveWorkload]

theorem getWorkload_save_ne (other : (projectID, id) ≠ (w.base.projectID, w.base.id)) :
    (s.saveWorkload w).getWorkload projectID id = s.getWorkload projectID id := by
  by_cases same : projectID = w.base.projectID
  · subst same
    have otherID : w.base.id ≠ id := fun sameID => other (by rw [sameID])
    refine Eq.trans ?_ (getWorkload_delete_ne other)
    simp only [getWorkload, saveWorkload, deleteWorkload, Function.update_self]
    exact List.find?_cons_of_neg (by simpa using otherID)
  · simp only [getWorkload, saveWorkload, Function.update_of_ne same]

/-- The workloads of all projects. -/
def listed (s : Store) : List Workload := s.projects.flatMap s.workloads

/-- How many placements of a workload are stored for a node. -/
def placedOn (s : Store) (workloadID nodeID : String) : Nat :=
  ((s.placements workloadID).map fun p => p.nodeID).count nodeID

/-- Every stored placement names its workload, and its ID is made of the IDs of the
workload and the node. -/
def Filed (s : Store) : Prop :=
  ∀ workloadID, ∀ p ∈ s.placements workloadID,
    p.workloadID = workloadID ∧ p.base.id = workloadID ++ "-" ++ p.nodeID

end Store

end MiniCloud.State
