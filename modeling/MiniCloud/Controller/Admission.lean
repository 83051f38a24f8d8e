import MiniCloud.Api.ReadOnly
import MiniCloud.Controller.Reconcile
import MiniCloud.Scheduler.Complete

/-!
# Admitted workloads

`handleWorkloads` stores a decoded workload after it has looked at the ID only, and
`ValidateWorkload` is called by nobody.  A negative number of replicas reaches
`Plan`, which makes a slice with that capacity as soon as a node passes the filter.
Every other value is planned without a panic.
-/

namespace MiniCloud.Controller

open MiniCloud.Api MiniCloud.State
open MiniCloud.Scheduler (filter passes passes_suitedNode plan planOn plainWorkload readyNode
  suitedNode validateWorkload)

/-- Neither planning nor reconciling the workload panics, whatever the nodes are. -/
structure Survives (w : Workload) : Prop where
  plans : ∀ nodes, plan nodes w ≠ .panicked
  reconciles : ∀ env s, (reconcileWorkload env s w).1 ≠ .panicked

/-! ## When a plan panics -/

theorem planOn_panics_iff (nodes : List Node) (w : Workload) :
    planOn nodes w = .panicked ↔ filter nodes w ≠ [] ∧ w.replicas < 0 := by
  constructor
  · intro panics
    cases Scheduler.Planned.of_planOn panics with
    | negative fits replicas => exact ⟨fits, replicas⟩
  · rintro ⟨fits, replicas⟩
    unfold planOn
    rw [if_neg (by simpa using fits), if_pos replicas]

/-- A workload survives exactly when its number of replicas is not negative. -/
theorem survives_iff (w : Workload) : Survives w ↔ 0 ≤ w.replicas := by
  constructor
  · intro survives
    refine Int32.not_lt.mp fun negative => survives.plans (.ok [suitedNode w]) ?_
    refine (planOn_panics_iff [suitedNode w] w).mpr ⟨?_, negative⟩
    exact List.ne_nil_of_mem (List.mem_filter.mpr ⟨List.mem_cons_self, passes_suitedNode w⟩)
  · intro replicas
    have planned : ∀ nodes, planOn nodes w ≠ .panicked := by
      intro nodes panics
      exact Int32.not_lt.mpr replicas ((planOn_panics_iff nodes w).mp panics).2
    constructor
    · intro nodes
      cases nodes with
      | error e => exact fun panics => by cases panics
      | ok nodes => exact planned nodes
    · intro env s ended
      have reconciled := reconciled_reconcileWorkload env s w
      generalize reconcileWorkload env s w = result at reconciled ended
      obtain ⟨outcome, next⟩ := result
      cases ended
      cases reconciled with
      | panicked panics => exact planned _ panics
      | stored _ _ _ _ noPanic => exact noPanic rfl

/-- The check that nobody calls is enough. -/
theorem survives_of_valid {w : Workload} (valid : validateWorkload w = none) : Survives w := by
  refine (survives_iff w).mpr (Int32.not_lt.mp fun negative => ?_)
  unfold validateWorkload at valid
  rw [if_pos negative] at valid
  split at valid
  · cases valid
  · split at valid
    · cases valid
    · cases valid

/-! ## What the handler admits -/

/-- The record that the handler makes of a decoded workload. -/
def recordFor (projectID : String) (w0 : Workload) : Workload :=
  { w0 with base := ⟨w0.base.id, projectID, w0.base.id⟩ }

/-- An answer 201 to a `POST` means that the decoded workload was stored. -/
theorem decoded_of_created {Content : Type} {sv : Server Content} {r : Request}
    {s next : Content} {response : Response} (post : r.method = "POST")
    (answered : sv.handleWorkloads r s = (next, some response)) (created : response.status = 201) :
    ∃ w0 stored, sv.json.readWorkload r.body = .ok w0 ∧
      sv.store.createWorkload (recordFor (r.query "project_id") w0) s = (next, .ok stored) := by
  have notGet : r.method ≠ "GET" := by
    rw [post]
    decide
  unfold Server.handleWorkloads at answered
  rw [if_neg notGet, if_pos post] at answered
  split at answered
  · cases answered
    cases created
  · split at answered
    · cases answered
      cases created
    · rename_i w0 decoded
      unfold Server.createNamed at answered
      split at answered
      · cases answered
        cases created
      · split at answered
        · cases answered
          cases created
        · rename_i next' stored result
          cases answered
          exact ⟨w0, stored, decoded, result⟩

/-- The controller survives an admitted workload exactly when the number of replicas
in the request is not negative; a negative one is fatal on every list with a node that
passes the filter. -/
theorem admitted_survives_iff {Content : Type} {sv : Server Content} {r : Request}
    {s next : Content} {response : Response} (post : r.method = "POST")
    (answered : sv.handleWorkloads r s = (next, some response)) (created : response.status = 201) :
    ∃ w0 stored, sv.json.readWorkload r.body = .ok w0 ∧
      sv.store.createWorkload (recordFor (r.query "project_id") w0) s = (next, .ok stored) ∧
      (Survives (recordFor (r.query "project_id") w0) ↔ 0 ≤ w0.replicas) ∧
      ∀ nodes, plan (.ok nodes) (recordFor (r.query "project_id") w0) = .panicked ↔
        filter nodes (recordFor (r.query "project_id") w0) ≠ [] ∧ w0.replicas < 0 := by
  obtain ⟨w0, stored, decoded, result⟩ := decoded_of_created post answered created
  refine ⟨w0, stored, decoded, result, survives_iff _, ?_⟩
  intro nodes
  exact planOn_panics_iff nodes (recordFor (r.query "project_id") w0)

/-- A server that decodes every body to the given workload. -/
def serverFor (w : Workload) : Server (List String) :=
  { sampleServer with json := { sampleEncoding with readWorkload := fun _ => .ok w } }

/-- The request to create a workload in the project. -/
def createWorkloadIn (project : String) : Request where
  method := "POST"
  path := "/v1/workloads"
  query := fun name => if name = "project_id" then project else ""
  header := fun _ => ""
  cookie := fun _ => none
  body := "w"

theorem admitted_pair_survives :
    Survives (recordFor "p" (plainWorkload "w" 2 400 40)) := by
  have answered : (serverFor (plainWorkload "w" 2 400 40)).handleWorkloads (createWorkloadIn "p") [] =
      ([], some (writeJSON 201 "")) := by rfl
  obtain ⟨w0, _, decoded, _, survives, _⟩ := admitted_survives_iff rfl answered rfl
  have isWorkload : w0 = plainWorkload "w" 2 400 40 := by
    cases decoded
    rfl
  rw [isWorkload] at survives
  exact survives.mpr (by decide)

/-- A workload with −1 replicas is created, and the next pass over it panics. -/
theorem negative_replicas_panic :
    (serverFor (plainWorkload "w" (-1) 400 40)).handleWorkloads (createWorkloadIn "p") [] =
        ([], some (writeJSON 201 "")) ∧
      recordFor "p" (plainWorkload "w" (-1) 400 40) = plainWorkload "w" (-1) 400 40 ∧
      plan (.ok [readyNode "n1" 1000 100]) (plainWorkload "w" (-1) 400 40) = .panicked ∧
      (reconcileWorkload Env.calm
        (oneProject [readyNode "n1" 1000 100] [plainWorkload "w" (-1) 400 40] (fun _ => [])
          distinct_n1 (by simp [plainWorkload])) (plainWorkload "w" (-1) 400 40)).1 = .panicked := by
  refine ⟨by rfl, rfl, by decide +kernel, by decide +kernel⟩

end MiniCloud.Controller
