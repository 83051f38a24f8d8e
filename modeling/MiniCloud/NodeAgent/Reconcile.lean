import MiniCloud.State.Records

/-!
# The reconcile loop of the node agent

`reconcileOnce` walks the placements of every workload of every project, enters
those of its own node into the map `want` under their IDs, and removes each
container whose ID is no key of the map.  Placements with the same ID share one
entry, so of each workload the map has at most one.
-/

namespace MiniCloud.NodeAgent

open MiniCloud.State

/-- What the store operations and the runtime answer during a pass. -/
structure Env where
  listProjects : Option StoreError
  listWorkloads : String → Option StoreError
  /-- The answer to the call for a workload; workloads of two projects may share an ID. -/
  getPlacements : Workload → Option StoreError
  /-- The IDs of the containers that `Runtime.List` returns. -/
  containers : List String

structure Agent where
  nodeID : String
  /-- Whether `Apply` is set. -/
  applies : Bool

/-- The map `want`, keyed by the placement ID. -/
abbrev Want := AList fun _ : String => Placement

/-- What the walk has collected: the map `want` and the calls of `Apply`. -/
structure Walked where
  want : Want
  applied : List (Workload × Placement)

def visitPlacement (a : Agent) (w : Workload) (walked : Walked) (pl : Placement) : Walked :=
  if pl.nodeID = a.nodeID then
    { want := walked.want.insert pl.base.id pl
      applied := if a.applies then walked.applied ++ [(w, pl)] else walked.applied }
  else walked

def visitWorkload (env : Env) (s : Store) (a : Agent) (walked : Walked) (w : Workload) : Walked :=
  match env.getPlacements w with
  | some _ => walked
  | none => (s.placements w.base.id).foldl (visitPlacement a w) walked

/-- The error of `ListWorkloads` is ignored; the list is then empty. -/
def visitProject (env : Env) (s : Store) (a : Agent) (walked : Walked) (p : String) : Walked :=
  let ws :=
    match env.listWorkloads p with
    | some _ => []
    | none => s.workloads p
  ws.foldl (visitWorkload env s a) walked

def walk (env : Env) (s : Store) (a : Agent) : Walked :=
  s.projects.foldl (visitProject env s a) ⟨∅, []⟩

/-- The calls of `Apply` and the IDs that are passed to `Runtime.Remove`. -/
structure Effects where
  applied : List (Workload × Placement)
  removed : List String

def reconcileOnce (env : Env) (s : Store) (a : Agent) : Effects :=
  match env.listProjects with
  | some _ => ⟨[], []⟩
  | none =>
      let walked := walk env s a
      ⟨walked.applied, env.containers.filter fun id => (walked.want.lookup id).isNone⟩

/-- The entries of the map that belong to a workload. -/
def Walked.entriesOf (walked : Walked) (workloadID : String) : Nat :=
  walked.want.entries.countP fun entry => entry.2.workloadID = workloadID

/-! ## The map after a walk -/

/-- No store operation fails. -/
structure Env.NoFault (env : Env) : Prop where
  listProjects : env.listProjects = none
  listWorkloads : ∀ p, env.listWorkloads p = none
  getPlacements : ∀ w, env.getPlacements w = none

/-- What a placement does to the map. -/
def enter (a : Agent) (want : Want) (pl : Placement) : Want :=
  if pl.nodeID = a.nodeID then want.insert pl.base.id pl else want

theorem visitPlacement_want (a : Agent) (w : Workload) (walked : Walked) (pl : Placement) :
    (visitPlacement a w walked pl).want = enter a walked.want pl := by
  unfold visitPlacement enter
  split
  · rfl
  · rfl

/-- The placements that a walk reads: an error of `ListWorkloads` or `GetPlacements`
leaves out those of a project or of a workload. -/
def seen (env : Env) (s : Store) : List Placement :=
  s.projects.flatMap fun p =>
    (if env.listWorkloads p = none then s.workloads p else []).flatMap fun w =>
      if env.getPlacements w = none then s.placements w.base.id else []

/-- The map is built from the placements that are read. -/
theorem walk_want_seen (env : Env) (s : Store) (a : Agent) :
    (walk env s a).want = (seen env s).foldl (enter a) ∅ := by
  have visited (walked : Walked) (w : Workload) :
      (if env.getPlacements w = none then s.placements w.base.id else []).foldl
          (enter a) walked.want =
        (visitWorkload env s a walked w).want := by
    unfold visitWorkload
    cases env.getPlacements w with
    | some e => rfl
    | none => exact List.foldl_hom Walked.want fun walked pl => (visitPlacement_want a w walked pl).symm
  have project (walked : Walked) (p : String) :
      (if env.listWorkloads p = none then s.workloads p else []).foldl
          (fun want w =>
            (if env.getPlacements w = none then s.placements w.base.id else []).foldl
              (enter a) want) walked.want =
        (visitProject env s a walked p).want := by
    unfold visitProject
    cases env.listWorkloads p with
    | some e => rfl
    | none => exact List.foldl_hom Walked.want visited
  unfold walk seen
  simp only [List.foldl_flatMap]
  exact (List.foldl_hom Walked.want project).symm

/-- Without faults the map is built from the placements of all workloads. -/
theorem walk_want {env : Env} (noFault : env.NoFault) (s : Store) (a : Agent) :
    (walk env s a).want =
      (s.listed.flatMap fun w => s.placements w.base.id).foldl (enter a) ∅ := by
  rw [walk_want_seen, seen, Store.listed, List.flatMap_assoc]
  simp only [noFault.listWorkloads, noFault.getPlacements, if_true]

/-- Every entry is a placement of the node under its ID. -/
theorem mem_enter {a : Agent} {ps : List Placement} {want : Want}
    {entry : Sigma fun _ : String => Placement}
    (member : entry ∈ (ps.foldl (enter a) want).entries) :
    entry ∈ want.entries ∨
      (entry.2 ∈ ps ∧ entry.2.nodeID = a.nodeID ∧ entry.1 = entry.2.base.id) := by
  induction ps generalizing want with
  | nil => exact Or.inl member
  | cons pl rest ih =>
      rcases ih member with before | ⟨inRest, here, key⟩
      · unfold enter at before
        split at before
        · rename_i here
          rw [AList.entries_insert] at before
          rcases List.mem_cons.mp before with rfl | old
          · exact Or.inr ⟨List.mem_cons_self, here, rfl⟩
          · exact Or.inl ((List.kerase_sublist _ _).subset old)
        · exact Or.inl before
      · exact Or.inr ⟨List.mem_cons_of_mem _ inRest, here, key⟩

/-- The keys are the IDs of the placements of the node. -/
theorem mem_keys_enter {a : Agent} {ps : List Placement} {want : Want} {key : String} :
    key ∈ ps.foldl (enter a) want ↔
      key ∈ want ∨ ∃ pl ∈ ps, pl.nodeID = a.nodeID ∧ pl.base.id = key := by
  induction ps generalizing want with
  | nil => simp
  | cons pl rest ih =>
      rw [List.foldl_cons, ih]
      unfold enter
      split
      · rename_i here
        simp only [AList.mem_insert, List.mem_cons, exists_eq_or_imp, here, true_and]
        rw [eq_comm, or_comm (b := key ∈ want), or_assoc]
      · rename_i elsewhere
        simp [elsewhere]

/-- The key of an entry is made of the workload of its placement and the node. -/
theorem key_of_entry {env : Env} (noFault : env.NoFault) {s : Store} (filed : s.Filed) (a : Agent)
    {entry : Sigma fun _ : String => Placement} (member : entry ∈ (walk env s a).want.entries) :
    entry.1 = entry.2.workloadID ++ "-" ++ a.nodeID := by
  rw [walk_want noFault] at member
  rcases mem_enter member with empty | ⟨stored, here, key⟩
  · cases empty
  · obtain ⟨v, _, ofWorkload⟩ := List.mem_flatMap.mp stored
    obtain ⟨named, made⟩ := filed _ _ ofWorkload
    rw [key, made, named, here]

/-- A listed workload has a key in the map if it is placed on the node. -/
theorem mem_want_iff {env : Env} (noFault : env.NoFault) {s : Store} (filed : s.Filed) (a : Agent)
    {workloadID : String} (listed : workloadID ∈ s.listed.map fun v => v.base.id) :
    workloadID ++ "-" ++ a.nodeID ∈ (walk env s a).want.keys ↔
      0 < s.placedOn workloadID a.nodeID := by
  rw [← AList.mem_keys, walk_want noFault, mem_keys_enter, Store.placedOn, List.count_pos_iff]
  constructor
  · rintro (empty | ⟨pl, stored, here, key⟩)
    · cases empty
    · obtain ⟨v, _, ofWorkload⟩ := List.mem_flatMap.mp stored
      obtain ⟨_, made⟩ := filed _ _ ofWorkload
      rw [made, here] at key
      have sameID : v.base.id = workloadID := by simpa [String.append_assoc] using key
      rw [sameID] at ofWorkload
      exact List.mem_map.mpr ⟨pl, ofWorkload, here⟩
  · intro placed
    obtain ⟨pl, ofWorkload, here⟩ := List.mem_map.mp placed
    obtain ⟨v, isListed, rfl⟩ := List.mem_map.mp listed
    have key := (filed _ _ ofWorkload).2
    rw [here] at key
    exact Or.inr ⟨pl, List.mem_flatMap.mpr ⟨v, isListed, ofWorkload⟩, here, key⟩

/-- The map has one entry of a workload that is placed on the node, however often it
is placed there, and none of the others. -/
theorem entriesOf_walk {env : Env} (noFault : env.NoFault) {s : Store} (filed : s.Filed)
    (a : Agent) {workloadID : String} (listed : workloadID ∈ s.listed.map fun v => v.base.id) :
    (walk env s a).entriesOf workloadID = min 1 (s.placedOn workloadID a.nodeID) := by
  have byKey : (walk env s a).entriesOf workloadID =
      (walk env s a).want.keys.count (workloadID ++ "-" ++ a.nodeID) := by
    unfold Walked.entriesOf AList.keys List.keys
    rw [List.count, List.countP_map]
    refine List.countP_congr ?_
    intro entry member
    simp [key_of_entry noFault filed a member]
  rw [byKey]
  by_cases placed : 0 < s.placedOn workloadID a.nodeID
  · have isKey := (mem_want_iff noFault filed a listed).mpr placed
    rw [List.count_eq_one_of_mem (walk env s a).want.keys_nodup isKey]
    omega
  · have noKey := mt (mem_want_iff noFault filed a listed).mp placed
    rw [List.count_eq_zero.mpr noKey]
    omega

end MiniCloud.NodeAgent
