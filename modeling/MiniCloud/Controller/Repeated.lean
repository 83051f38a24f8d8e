import MiniCloud.Controller.Placements
import MiniCloud.LoadBalancer.Refresh

/-!
# Reconciling a second time

The node agents advance the status of stored placements to `Ready`.  A second
`reconcileWorkload` makes the same plan and stores it again, with every placement
`Pending`: the nodes and the replica indices stay, the statuses do not.
-/

namespace MiniCloud.Controller

open MiniCloud.State
open MiniCloud.Scheduler (Decision plan planOn)

/-- The placement as it was written, or since advanced to `Ready`. -/
def Advances (written now : Placement) : Prop :=
  now = written ∨ now = { written with status := "Ready" }

/-- A plan does not read the status of the workload. -/
theorem planOn_status (nodes : List Node) (w : Workload) (status : WorkloadStatus) :
    planOn nodes { w with status := status } = planOn nodes w := by
  unfold planOn
  simp only [Scheduler.placeLoop_eq]
  rfl

theorem placementOf_status (w : Workload) (status : WorkloadStatus) :
    placementOf { w with status := status } = placementOf w := rfl

/-- An advanced list has the nodes and replica indices of the written one. -/
theorem pairs_of_advances {written now : List Placement}
    (advanced : List.Forall₂ Advances written now) : pairs now = pairs written := by
  induction advanced with
  | nil => rfl
  | cons advances rest ih =>
      unfold pairs at ih ⊢
      rw [List.map_cons, List.map_cons, ih]
      rcases advances with same | ready
      · rw [same]
      · rw [ready]

/-- An advanced list is the written one if nothing is `Ready` that was `Pending`. -/
theorem eq_iff_pending {written now : List Placement}
    (advanced : List.Forall₂ Advances written now)
    (pending : ∀ p ∈ written, p.status = "Pending") :
    written = now ↔ ∀ p ∈ now, p.status = "Pending" := by
  induction advanced with
  | nil => simp
  | @cons first firstNow rest restNow advances _ ih =>
      have restPending := ih fun p member => pending p (List.mem_cons_of_mem first member)
      have firstPending := pending first List.mem_cons_self
      rw [List.cons.injEq, restPending, List.forall_mem_cons]
      refine and_congr_left fun _ => ?_
      constructor
      · rintro rfl
        exact firstPending
      · intro nowPending
        rcases advances with same | ready
        · exact same.symm
        · rw [ready] at nowPending
          have different : "Ready" ≠ "Pending" := by decide
          exact absurd nowPending different

theorem pending_of_placementOf (w : Workload) (d : Decision) :
    ∀ p ∈ d.placements.map (placementOf w), p.status = "Pending" := by
  intro p member
  obtain ⟨planned, _, rfl⟩ := List.mem_map.mp member
  rfl

/-- A pass of which `ListNodes` or `SetPlacements` fails. -/
def Fails (env : Env) (w : Workload) : Prop :=
  env.listNodes w.base ≠ none ∨ env.setPlacements w.base ≠ none

theorem unchanged_of_fails {env : Env} {s : Store} {w : Workload} {d : Decision}
    (planned : planOn s.nodes w = .ok d) (placed : ¬ Unplaced d) (fails : Fails env w) :
    (reconcileWorkload env s w).2 = s := by
  unfold reconcileWorkload
  cases read : env.listNodes w.base with
  | some e => rfl
  | none =>
      simp only [plan, planned, if_neg placed]
      unfold persist
      cases written : env.setPlacements w.base with
      | some e => rfl
      | none =>
          rcases fails with unread | unwritten
          · exact absurd read unread
          · exact absurd written unwritten

theorem placements_of_not_fails {env : Env} {s : Store} {w : Workload} {d : Decision}
    (planned : planOn s.nodes w = .ok d) (placed : ¬ Unplaced d) (works : ¬ Fails env w) :
    (reconcileWorkload env s w).2.placements =
      (s.setPlacements w.base.id (d.placements.map (placementOf w))).placements := by
  unfold Fails at works
  rw [not_or, not_not, not_not] at works
  exact stored_placements planned placed works.1 works.2

/-- When the list of the workload is kept, all lists are. -/
theorem same_placements {env : Env} {s : Store} {w : Workload}
    (kept : (reconcileWorkload env s w).2.placements w.base.id = s.placements w.base.id) :
    (reconcileWorkload env s w).2.placements = s.placements := by
  rcases (reconciled_reconcileWorkload env s w).placements with unchanged | ⟨d, changed⟩
  · exact unchanged
  · funext workloadID
    by_cases same : workloadID = w.base.id
    · rw [same, kept]
    · rw [changed, Store.setPlacements_ne _ _ same]

/-- Let a pass have stored the placements of a workload, and their statuses be
advanced since.  A second pass over the same nodes keeps the nodes and the replica
indices; it keeps the list if and only if it fails or no status has been advanced,
and then the load balancer has the same backends. -/
theorem reconcile_again_keeps_iff {first : Env} {before s : Store} {w : Workload} {d : Decision}
    (planned : plan (.ok before.nodes) w = .ok d) (placed : ¬ Unplaced d)
    (works : ¬ Fails first w) (sameNodes : s.nodes = before.nodes)
    (advanced : List.Forall₂ Advances
      ((reconcileWorkload first before w).2.placements w.base.id) (s.placements w.base.id))
    (again : Env) (status : WorkloadStatus) :
    pairs ((reconcileWorkload again s { w with status := status }).2.placements w.base.id) =
        pairs (s.placements w.base.id) ∧
      ((reconcileWorkload again s { w with status := status }).2.placements w.base.id =
          s.placements w.base.id ↔
        Fails again w ∨ ∀ p ∈ s.placements w.base.id, p.status = "Pending") ∧
      ((reconcileWorkload again s { w with status := status }).2.placements w.base.id =
          s.placements w.base.id →
        ∀ env services b,
          LoadBalancer.refresh env (reconcileWorkload again s { w with status := status }).2
            services b = LoadBalancer.refresh env s services b) := by
  have plannedAgain : planOn s.nodes { w with status := status } = .ok d := by
    rw [planOn_status, sameNodes]
    exact planned
  rw [placements_of_not_fails planned placed works, Store.setPlacements_self] at advanced
  have refreshes : (reconcileWorkload again s { w with status := status }).2.placements w.base.id =
      s.placements w.base.id → ∀ env services b,
        LoadBalancer.refresh env (reconcileWorkload again s { w with status := status }).2
          services b = LoadBalancer.refresh env s services b := by
    intro kept env services b
    have projects := (reconciled_reconcileWorkload again s { w with status := status }).kept.projects
    exact LoadBalancer.refresh_congr projects (same_placements kept) env services b
  by_cases fails : Fails again { w with status := status }
  · have unchanged := unchanged_of_fails plannedAgain placed fails
    refine ⟨?_, ?_, refreshes⟩
    · rw [unchanged]
    · rw [unchanged]
      exact iff_of_true rfl (Or.inl fails)
  · -- The second pass stores the plan of the first, all of it `Pending`.
    have list : (reconcileWorkload again s { w with status := status }).2.placements w.base.id =
        d.placements.map (placementOf w) := by
      rw [placements_of_not_fails plannedAgain placed fails, placementOf_status]
      exact Store.setPlacements_self _ _ _
    refine ⟨?_, ?_, refreshes⟩
    · rw [list, pairs_of_advances advanced]
    · rw [list, eq_iff_pending advanced (pending_of_placementOf w d)]
      exact (or_iff_right fails).symm

/-- The workload `web` runs on `n1`, with the given status of its placement. -/
def running (status : String) : Store :=
  oneProject [Scheduler.readyNode "n1" 1000 100] [Scheduler.plainWorkload "web" 1 100 10]
    (fun id => if id = "web" then [{ firstOn "web" "n1" with status := status }] else [])
    distinct_n1 (by decide)

/-- The addresses that a balancer for the service of `web` has after a refresh in
which all reads succeed. -/
def refreshed (s : Store) : List String :=
  (LoadBalancer.refresh ⟨none, fun _ => none, fun _ => none⟩ s
    (fun _ => [⟨⟨"svc", "p", "svc"⟩, "web", 80⟩]) ⟨"svc", []⟩).backends.map fun b => b.addr

theorem reconcile_again_keeps_pending :
    (reconcileWorkload Env.calm (running "Pending")
        { Scheduler.plainWorkload "web" 1 100 10 with status := ⟨true, "", 1, 1⟩ }).2.placements "web" =
      (running "Pending").placements "web" := by
  have planned : plan (.ok (running "Pending").nodes) (Scheduler.plainWorkload "web" 1 100 10) =
      .ok ⟨"web", [⟨"n1", 0⟩], ""⟩ := by decide +kernel
  have works : ¬ Fails Env.calm (Scheduler.plainWorkload "web" 1 100 10) := by
    rintro (unread | unwritten)
    · exact unread rfl
    · exact unwritten rfl
  have stored : (reconcileWorkload Env.calm (running "Pending")
      (Scheduler.plainWorkload "web" 1 100 10)).2.placements "web" =
        (running "Pending").placements "web" := by decide +kernel
  have advanced : List.Forall₂ Advances ((reconcileWorkload Env.calm (running "Pending")
      (Scheduler.plainWorkload "web" 1 100 10)).2.placements "web")
        ((running "Pending").placements "web") := by
    rw [stored]
    exact List.forall₂_same.mpr fun _ _ => Or.inl rfl
  have keeps := reconcile_again_keeps_iff planned (by decide) works rfl advanced Env.calm
    ⟨true, "", 1, 1⟩
  exact keeps.2.1.mpr (Or.inr (by decide))

/-- The placement on `n1` is ready.  The second pass stores it as `Pending`, and the
balancer loses its only backend. -/
theorem reconcile_again_resets_ready :
    (reconcileWorkload Env.calm (running "Pending")
        (Scheduler.plainWorkload "web" 1 100 10)).2.placements "web" =
      [firstOn "web" "n1"] ∧
    (running "Ready").placements "web" = [{ firstOn "web" "n1" with status := "Ready" }] ∧
    (reconcileWorkload Env.calm (running "Ready")
        (Scheduler.plainWorkload "web" 1 100 10)).2.placements "web" =
      [firstOn "web" "n1"] ∧
    refreshed (running "Ready") = ["n1:80"] ∧
    refreshed (reconcileWorkload Env.calm (running "Ready")
      (Scheduler.plainWorkload "web" 1 100 10)).2 = [] := by
  decide +kernel

end MiniCloud.Controller
