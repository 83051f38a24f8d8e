import MiniCloud.Controller.Repeated
import MiniCloud.Runtime.Fake

/-!
# What the node agent removes

The agent removes every container that its walk has not found a placement for.  A
walk that could not read some of the placements goes on to the removals all the same,
so the containers of those placements are removed although they are planned.
-/

namespace MiniCloud.NodeAgent

open MiniCloud.State
open MiniCloud.Runtime (Fake)

/-- A pass on the in-memory runtime, which is listed after the walk. -/
def reconcileFake (env : Env) (s : Store) (a : Agent) (f : Fake) : Fake :=
  (reconcileOnce { env with containers := (f.list true).map fun c => c.id } s a).removed.foldl
    (fun f id => (f.remove id true).2) f

/-- A placement on the node has the ID. -/
def Placed (a : Agent) (ps : List Placement) (id : String) : Prop :=
  ∃ pl ∈ ps, pl.nodeID = a.nodeID ∧ pl.base.id = id

/-- A placement with the ID is stored for the node. -/
def Planned (s : Store) (a : Agent) (id : String) : Prop :=
  ∃ workloadID, Placed a (s.placements workloadID) id

/-- Every read of the pass succeeds, and it reaches all placements of the node. -/
structure Complete (env : Env) (s : Store) (a : Agent) : Prop where
  listWorkloads : ∀ p ∈ s.projects, env.listWorkloads p = none
  getPlacements : ∀ w ∈ s.listed, env.getPlacements w = none
  ofListed : ∀ workloadID, ∀ pl ∈ s.placements workloadID, pl.nodeID = a.nodeID →
    ∃ w ∈ s.listed, w.base.id = workloadID

theorem no_entry_iff (env : Env) (s : Store) (a : Agent) (id : String) :
    ((walk env s a).want.lookup id).isNone = true ↔ ¬ Placed a (seen env s) id := by
  rw [Option.isNone_iff_eq_none, AList.lookup_eq_none, walk_want_seen, mem_keys_enter,
    or_iff_right (AList.notMem_empty id)]
  rfl

/-- What is left of the containers after a pass. -/
theorem mem_reconcileFake (env : Env) (s : Store) (a : Agent) (f : Fake) (id : String) :
    id ∈ (reconcileFake env s a f).conts ↔
      id ∈ f.conts ∧ (env.listProjects = none → Placed a (seen env s) id) := by
  unfold reconcileFake reconcileOnce
  rw [Fake.mem_removeAll, Fake.ids_list]
  cases env.listProjects with
  | some e => simp
  | none =>
      rw [List.mem_filter, no_entry_iff, ← AList.mem_keys]
      change ¬ (id ∈ f.conts ∧ ¬ Placed a (seen env s) id) ∧ id ∈ f.conts ↔
        id ∈ f.conts ∧ (none = none → Placed a (seen env s) id)
      tauto

/-- A placement of the node is read by a complete pass. -/
theorem seen_of_complete {env : Env} {s : Store} {a : Agent} (complete : Complete env s a)
    {id : String} (planned : Planned s a id) : Placed a (seen env s) id := by
  obtain ⟨workloadID, pl, stored, here, isID⟩ := planned
  obtain ⟨w, listed, rfl⟩ := complete.ofListed workloadID pl stored here
  obtain ⟨p, project, ofProject⟩ := List.mem_flatMap.mp listed
  refine ⟨pl, ?_, here, isID⟩
  refine List.mem_flatMap.mpr ⟨p, project, ?_⟩
  rw [if_pos (complete.listWorkloads p project)]
  refine List.mem_flatMap.mpr ⟨w, ofProject, ?_⟩
  rw [if_pos (complete.getPlacements w listed)]
  exact stored

/-- A pass leaves all planned containers if and only if `ListProjects` fails or it has
read a placement of the node for each of them; a complete pass has. -/
theorem planned_kept_iff_seen (env : Env) (s : Store) (a : Agent) (f : Fake) :
    ((∀ id ∈ f.conts, Planned s a id → id ∈ (reconcileFake env s a f).conts) ↔
      (env.listProjects = none →
        ∀ id ∈ f.conts, Planned s a id → Placed a (seen env s) id)) ∧
    (Complete env s a →
      ∀ id ∈ f.conts, Planned s a id → id ∈ (reconcileFake env s a f).conts) := by
  constructor
  · constructor
    · intro kept read id present planned
      exact ((mem_reconcileFake env s a f id).mp (kept id present planned)).2 read
    · intro covered id present planned
      exact (mem_reconcileFake env s a f id).mpr
        ⟨present, fun read => covered read id present planned⟩
  · intro complete id present planned
    exact (mem_reconcileFake env s a f id).mpr
      ⟨present, fun _ => seen_of_complete complete planned⟩

/-- The container `web-n1` runs, and nothing else. -/
def oneContainer : Fake where
  heap := [⟨⟨"web-n1", "web", .running, "image", 0, 101⟩, false, true⟩]
  conts := AList.singleton "web-n1" 0
  logs := AList.singleton "web-n1" ""
  stats := AList.singleton "web-n1" ⟨0, 0, 0⟩
  keyed := by
    intro id i found
    have member := List.mem_singleton.mp (AList.mem_lookup_iff.mp found)
    cases member
    exact ⟨_, rfl, rfl⟩

/-- Reads succeed, apart from those of the placements of `failing`. -/
def failingReads (failing : List String) : Env :=
  ⟨none, fun _ => none, fun w => if w.base.id ∈ failing then some ⟨"unavailable"⟩ else none, []⟩

theorem planned_kept_when_read :
    "web-n1" ∈ (reconcileFake (failingReads []) (Controller.running "Ready") ⟨"n1", true⟩
      oneContainer).conts := by
  have complete : Complete (failingReads []) (Controller.running "Ready") ⟨"n1", true⟩ := by
    refine ⟨fun _ _ => rfl, fun _ _ => rfl, ?_⟩
    intro workloadID pl stored _
    by_cases web : workloadID = "web"
    · exact ⟨_, List.mem_cons_self, web.symm⟩
    · have noneStored : (Controller.running "Ready").placements workloadID = [] := if_neg web
      rw [noneStored] at stored
      cases stored
  have present : "web-n1" ∈ oneContainer.conts := by decide
  exact (planned_kept_iff_seen _ _ _ _).2 complete "web-n1" present
    ⟨"web", _, List.mem_cons_self, rfl, rfl⟩

/-- `GetPlacements` fails for the workload `web`, which is placed on `n1`; its container
is removed. -/
theorem planned_removed_when_unread :
    ((Controller.running "Ready").placements "web").map (fun pl => (pl.base.id, pl.nodeID)) =
        [("web-n1", "n1")] ∧
      oneContainer.conts.keys = ["web-n1"] ∧
      (reconcileFake (failingReads ["web"]) (Controller.running "Ready") ⟨"n1", true⟩
        oneContainer).conts.keys = [] := by
  decide +kernel

end MiniCloud.NodeAgent
