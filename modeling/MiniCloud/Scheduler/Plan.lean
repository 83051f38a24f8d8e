import Mathlib.Data.List.Infix
import Mathlib.Data.List.Sort
import MiniCloud.Library.FirstFit
import MiniCloud.Library.Float64
import MiniCloud.State.Records

/-!
# The scheduler

`Plan` filters the nodes, orders the survivors by their free share and puts the
replicas, one after another, on the first node that has not reached its maximum.
The loop is that of first-fit filling, so a plan never uses a node more often than
`maxPerNode` allows.
-/

namespace MiniCloud.Scheduler

open MiniCloud.Library MiniCloud.State

/-- One replica on one node. -/
structure Placement where
  nodeID : String
  replicaIdx : Nat
  deriving DecidableEq, Repr

/-- The plan for a workload; `unscheduled` says why replicas are missing. -/
structure Decision where
  workloadID : String
  placements : List Placement
  unscheduled : String
  deriving DecidableEq, Repr

/-! ## Filter -/

def matchSelector (sel labels : Labels) : Bool :=
  sel.entries.all fun wanted => labels.get wanted.1 = wanted.2

/-- `strings.SplitN(s, "=", 2)`, when it yields two parts. -/
def splitToleration (s : String) : Option (String × String) :=
  match s.toList.span (· ≠ '=') with
  | (_, []) => none
  | (key, _ :: value) => some (String.ofList key, String.ofList value)

def hasToleration (tol : List String) (t : Taint) : Bool :=
  tol.any fun t2 =>
    match splitToleration t2 with
    | none => false
    | some (key, value) => key = t.key && (value = "*" || value = t.value)

def tolerates (tol : List String) (taints : List Taint) : Bool :=
  taints.all fun t => !(t.effect = "NoSchedule" && !hasToleration tol t)

def freeCPU (n : Node) : Int64 := n.cpuAllocatable - n.cpuAllocated

def freeMem (n : Node) : Int64 := n.memAllocatable - n.memAllocated

/-- The tests of `filter`, in their order. -/
def passes (w : Workload) (n : Node) : Bool :=
  !(n.unschedulable || n.drain || n.cordoned) &&
    n.status = "Ready" &&
    !(freeCPU n < w.cpuMillicores) &&
    !(freeMem n < w.memoryBytes) &&
    !(n.gpus < w.gpus) &&
    matchSelector w.nodeSelector n.labels &&
    tolerates w.tolerations n.taints

def filter (nodes : List Node) (w : Workload) : List Node :=
  nodes.filter (passes w)

/-! ## Score -/

/-- The free share of a node, computed in binary64. -/
def scoreOf (n : Node) : ℚ :=
  let freeCPU := roundFloat64 (freeCPU n).toInt
  let freeMem := roundFloat64 (freeMem n).toInt
  let total := roundFloat64 (n.cpuAllocatable + n.memAllocatable).toInt
  let avail := roundFloat64 (freeCPU + freeMem)
  if total = 0 then 0 else roundFloat64 (avail / total)

/-- A stable sort, the highest score first. -/
def score (nodes : List Node) : List Node :=
  nodes.insertionSort fun first second => scoreOf second ≤ scoreOf first

/-! ## Placing the replicas -/

/-- `strings.Contains` -/
def contains (s sub : String) : Bool := decide (sub.toList <:+: s.toList)

/-- How many replicas of the workload a node may take. -/
def maxPerNode (w : Workload) (n : Node) : Nat :=
  if w.antiAffinity.any fun a => contains a w.base.name then 1
  else if w.cpuMillicores = 0 then 4
  else
    let c := freeCPU n / w.cpuMillicores
    if 4 < c then 4
    else if c ≤ 0 then 0
    else c.toInt.toNat

/-- The loop of `Plan`, with the replicas still to be placed. -/
def placeLoop (w : Workload) (scored : List Node) :
    Nat → Nat → List Placement → (String → Nat) → Decision
  | 0, _, placements, _ => ⟨w.base.id, placements, ""⟩
  | remaining + 1, i, placements, perNode =>
      match scored.find? fun n => perNode n.base.id < maxPerNode w n with
      | none => ⟨w.base.id, placements, "not enough capacity for all replicas"⟩
      | some n =>
          placeLoop w scored remaining (i + 1) (placements ++ [⟨n.base.id, i⟩])
            (Function.update perNode n.base.id (perNode n.base.id + 1))

/-- How a call ends: with a result, with an error, or by a panic. -/
inductive Outcome (α : Type) where
  | ok (value : α)
  | err (e : StoreError)
  /-- `makeslice: cap out of range` -/
  | panicked
  deriving DecidableEq, Repr

/-- `Plan` on the nodes that the store lists.  A negative number of replicas is no
capacity of a slice. -/
def planOn (nodes : List Node) (w : Workload) : Outcome Decision :=
  let filtered := filter nodes w
  if filtered.isEmpty then .ok ⟨w.base.id, [], "no node satisfies filters"⟩
  else if w.replicas < 0 then .panicked
  else .ok (placeLoop w (score filtered) w.replicas.toInt.toNat 0 [] fun _ => 0)

def plan (nodes : Except StoreError (List Node)) (w : Workload) : Outcome Decision :=
  match nodes with
  | .error e => .err e
  | .ok nodes => planOn nodes w

/-! ## Storing a plan -/

/-- The placement record that `Reconcile` makes of a planned replica. -/
def recordOf (w : Workload) (p : Placement) : State.Placement where
  base :=
    ⟨w.base.id ++ "-" ++ toString p.replicaIdx, w.base.projectID,
      w.base.name ++ "-" ++ toString p.replicaIdx⟩
  workloadID := w.base.id
  nodeID := p.nodeID
  replicaIdx := p.replicaIdx
  status := "Pending"

/-- `Reconcile`, given how `ListNodes` and `SetPlacements` answer. -/
def reconcile (listNodes setPlacements : Option StoreError) (s : Store) (w : Workload) :
    Outcome Unit × Store :=
  let nodes : Except StoreError (List Node) :=
    match listNodes with
    | some e => .error e
    | none => .ok s.nodes
  match plan nodes w with
  | .err e => (.err e, s)
  | .panicked => (.panicked, s)
  | .ok d =>
      match setPlacements with
      | some e => (.err e, s)
      | none => (.ok (), s.setPlacements w.base.id (d.placements.map (recordOf w)))

/-- Only the placements under the ID of the workload are written. -/
theorem reconcile_placements_ne (listNodes setPlacements : Option StoreError) (s : Store)
    (w : Workload) {other : String} (different : other ≠ w.base.id) :
    (reconcile listNodes setPlacements s w).2.placements other = s.placements other := by
  unfold reconcile
  simp only
  split
  · rfl
  · rfl
  · cases setPlacements with
    | some e => rfl
    | none => exact s.setPlacements_ne _ different

/-! ## Checking a workload -/

/-- `ValidateWorkload`, with the text of its error. -/
def validateWorkload (w : Workload) : Option String :=
  if w.base.id = "" then some "scheduler: workload id required"
  else if w.cpuMillicores < 0 ∨ w.memoryBytes < 0 then some "scheduler: negative resources"
  else if w.replicas < 0 then some "scheduler: negative replicas"
  else none

/-! ## What a plan consists of -/

/-- The nodes that a plan uses, replica by replica. -/
def chosen (nodes : List Node) (w : Workload) : List Node :=
  firstFit (fun n => n.base.id) (maxPerNode w) (score (filter nodes w)) w.replicas.toInt.toNat
    fun _ => 0

/-- The loop is first-fit filling. -/
theorem placeLoop_eq (w : Workload) (scored : List Node) (remaining i : Nat)
    (placements : List Placement) (perNode : String → Nat) :
    placeLoop w scored remaining i placements perNode =
      let fit := firstFit (fun n => n.base.id) (maxPerNode w) scored remaining perNode
      ⟨w.base.id, placements ++ (fit.zipIdx i).map fun found => ⟨found.1.base.id, found.2⟩,
        if fit.length < remaining then "not enough capacity for all replicas" else ""⟩ := by
  induction remaining generalizing i placements perNode with
  | zero => simp [placeLoop, firstFit]
  | succ remaining ih =>
      cases found : scored.find? fun n => perNode n.base.id < maxPerNode w n with
      | none => simp [placeLoop, firstFit, found]
      | some n => simp [placeLoop, firstFit, found, ih]

theorem planOn_of_nonempty {nodes : List Node} {w : Workload}
    (fits : filter nodes w ≠ []) (replicas : 0 ≤ w.replicas) :
    planOn nodes w = .ok ⟨w.base.id,
      ((chosen nodes w).zipIdx 0).map fun found => ⟨found.1.base.id, found.2⟩,
      if (chosen nodes w).length < w.replicas.toInt.toNat then
        "not enough capacity for all replicas" else ""⟩ := by
  unfold planOn
  rw [if_neg (by simpa using fits), if_neg (Int32.not_lt.mpr replicas), placeLoop_eq]
  rfl

theorem score_perm (nodes : List Node) : (score nodes).Perm nodes := List.perm_insertionSort _ _

theorem mem_score {nodes : List Node} {n : Node} : n ∈ score nodes ↔ n ∈ nodes :=
  (score_perm nodes).mem_iff

/-- The filtered nodes have different IDs in every order. -/
theorem distinct_of_perm {nodes scored : List Node} {w : Workload}
    (distinct : (nodes.map fun n => n.base.id).Nodup) (permutes : scored.Perm (filter nodes w)) :
    (scored.map fun n => n.base.id).Nodup := by
  rw [(permutes.map _).nodup_iff]
  exact distinct.sublist (List.filter_sublist.map _)

/-- What a plan can be. -/
inductive Planned (nodes : List Node) (w : Workload) : Outcome Decision → Prop where
  | nothing (noFit : filter nodes w = []) :
      Planned nodes w (.ok ⟨w.base.id, [], "no node satisfies filters"⟩)
  | negative (fits : filter nodes w ≠ []) (replicas : w.replicas < 0) :
      Planned nodes w .panicked
  | placed (fits : filter nodes w ≠ []) (replicas : 0 ≤ w.replicas) :
      Planned nodes w (.ok ⟨w.base.id,
        ((chosen nodes w).zipIdx 0).map fun found => ⟨found.1.base.id, found.2⟩,
        if (chosen nodes w).length < w.replicas.toInt.toNat then
          "not enough capacity for all replicas" else ""⟩)

theorem planned_planOn (nodes : List Node) (w : Workload) :
    Planned nodes w (planOn nodes w) := by
  by_cases noFit : filter nodes w = []
  · have planned : planOn nodes w = .ok ⟨w.base.id, [], "no node satisfies filters"⟩ := by
      unfold planOn
      rw [if_pos (by simpa using noFit)]
    rw [planned]
    exact .nothing noFit
  · by_cases negative : w.replicas < 0
    · have planned : planOn nodes w = .panicked := by
        unfold planOn
        rw [if_neg (by simpa using noFit), if_pos negative]
      rw [planned]
      exact .negative noFit negative
    · rw [planOn_of_nonempty noFit (Int32.not_lt.mp negative)]
      exact .placed noFit (Int32.not_lt.mp negative)

theorem Planned.of_planOn {nodes : List Node} {w : Workload} {outcome : Outcome Decision}
    (planned : planOn nodes w = outcome) : Planned nodes w outcome :=
  planned ▸ planned_planOn nodes w

/-- A plan is made unless the number of replicas is negative. -/
theorem planOn_ok (nodes : List Node) {w : Workload} (replicas : 0 ≤ w.replicas) :
    ∃ d, planOn nodes w = .ok d := by
  cases planned : planOn nodes w with
  | ok d => exact ⟨d, rfl⟩
  | err e => cases Planned.of_planOn planned
  | panicked =>
      cases Planned.of_planOn planned with
      | negative _ negative => exact absurd replicas (Int32.not_le.mpr negative)

/-- The nodes of a decision, replica by replica. -/
def Decision.nodeIDs (d : Decision) : List String := d.placements.map Placement.nodeID

/-- The decision that the loop makes of the nodes it chose. -/
def decisionOf (w : Workload) (fit : List Node) : Decision :=
  ⟨w.base.id, (fit.zipIdx 0).map fun found => ⟨found.1.base.id, found.2⟩,
    if fit.length < w.replicas.toInt.toNat then "not enough capacity for all replicas" else ""⟩

theorem nodeIDs_decisionOf (w : Workload) (fit : List Node) :
    (decisionOf w fit).nodeIDs = fit.map fun n => n.base.id := by
  simp only [Decision.nodeIDs, decisionOf, List.map_map]
  have forget : Placement.nodeID ∘ (fun found : Node × Nat =>
      (⟨found.1.base.id, found.2⟩ : Placement)) = (fun n => n.base.id) ∘ Prod.fst := rfl
  rw [forget, ← List.map_map, List.zipIdx_map_fst]

/-- Without a panic a plan uses the chosen nodes, in their order. -/
theorem nodeIDs_of_planOn {nodes : List Node} {w : Workload} {d : Decision}
    (planned : planOn nodes w = .ok d) :
    d.nodeIDs = (chosen nodes w).map fun n => n.base.id := by
  cases Planned.of_planOn planned with
  | nothing noFit =>
      have none : chosen nodes w = [] := by
        refine List.eq_nil_iff_forall_not_mem.mpr ?_
        intro n isChosen
        have fits := mem_score.mp (mem_firstFit isChosen)
        rw [noFit] at fits
        cases fits
      rw [none]
      rfl
  | placed fits replicas => exact nodeIDs_decisionOf w (chosen nodes w)

/-- A chosen node is one of the given nodes and passes the filter. -/
theorem passes_of_chosen {nodes : List Node} {w : Workload} {n : Node}
    (isChosen : n ∈ chosen nodes w) : n ∈ nodes ∧ passes w n = true :=
  List.mem_filter.mp (mem_score.mp (mem_firstFit isChosen))

end MiniCloud.Scheduler
