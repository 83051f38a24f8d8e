import MiniCloud.Scheduler.Capacity

/-!
# A plan places as much as it can

Whatever the order in which `score` lists the filtered nodes, the loop of `Plan`
stops early only when every one of them has reached its maximum.  A plan therefore
places the smaller of the replicas asked for and the places that the nodes offer.
-/

namespace MiniCloud.Scheduler

open MiniCloud.Library MiniCloud.State

/-! ## The conditions of the filter -/

/-- A toleration that covers the taint. -/
def Covers (tol : String) (t : Taint) : Prop :=
  ∃ value, splitToleration tol = some (t.key, value) ∧ (value = "*" ∨ value = t.value)

/-- What `filter` asks of a node, condition by condition. -/
structure Eligible (w : Workload) (n : Node) : Prop where
  schedulable : n.unschedulable = false ∧ n.drain = false ∧ n.cordoned = false
  ready : n.status = "Ready"
  cpu : w.cpuMillicores ≤ freeCPU n
  mem : w.memoryBytes ≤ freeMem n
  gpus : w.gpus ≤ n.gpus
  selector : ∀ k v, w.nodeSelector.lookup k = some v → n.labels.get k = v
  taints : ∀ t ∈ n.taints, t.effect = "NoSchedule" → ∃ tol ∈ w.tolerations, Covers tol t

theorem matchSelector_iff (sel labels : Labels) :
    matchSelector sel labels = true ↔ ∀ k v, sel.lookup k = some v → labels.get k = v := by
  unfold matchSelector
  rw [List.all_eq_true]
  constructor
  · intro agrees k v wanted
    have entry : (⟨k, v⟩ : Sigma fun _ : String => String) ∈ sel.entries :=
      AList.mem_lookup_iff.mp wanted
    exact of_decide_eq_true (agrees _ entry)
  · intro agrees wanted member
    exact decide_eq_true (agrees wanted.1 wanted.2 (AList.mem_lookup_iff.mpr member))

theorem hasToleration_iff (tol : List String) (t : Taint) :
    hasToleration tol t = true ↔ ∃ t2 ∈ tol, Covers t2 t := by
  unfold hasToleration Covers
  rw [List.any_eq_true]
  refine exists_congr fun t2 => and_congr_right fun _ => ?_
  cases parts : splitToleration t2 with
  | none => simp
  | some found =>
      obtain ⟨key, value⟩ := found
      simp only [Bool.and_eq_true, Bool.or_eq_true, decide_eq_true_eq, Option.some.injEq,
        Prod.mk.injEq]
      constructor
      · rintro ⟨sameKey, covered⟩
        exact ⟨value, ⟨sameKey, rfl⟩, covered⟩
      · rintro ⟨_, ⟨sameKey, rfl⟩, covered⟩
        exact ⟨sameKey, covered⟩

theorem tolerates_iff (tol : List String) (taints : List Taint) :
    tolerates tol taints = true ↔
      ∀ t ∈ taints, t.effect = "NoSchedule" → ∃ t2 ∈ tol, Covers t2 t := by
  unfold tolerates
  rw [List.all_eq_true]
  refine forall₂_congr fun t _ => ?_
  rw [← hasToleration_iff]
  simp only [Bool.not_eq_true', Bool.and_eq_false_iff, Bool.not_eq_false', decide_eq_false_iff_not]
  exact imp_iff_not_or.symm

/-- The tests of the code are the conditions. -/
theorem passes_iff_eligible (w : Workload) (n : Node) : passes w n = true ↔ Eligible w n := by
  unfold passes
  simp only [Bool.and_eq_true, Bool.not_eq_true', Bool.or_eq_false_iff, decide_eq_false_iff_not,
    decide_eq_true_eq, Int64.not_lt, matchSelector_iff, tolerates_iff]
  constructor
  · rintro ⟨⟨⟨⟨⟨⟨⟨⟨notMarked, notDrained⟩, notCordoned⟩, ready⟩, cpu⟩, mem⟩, gpus⟩, selector⟩, taints⟩
    exact ⟨⟨notMarked, notDrained, notCordoned⟩, ready, cpu, mem, gpus, selector, taints⟩
  · rintro ⟨⟨notMarked, notDrained, notCordoned⟩, ready, cpu, mem, gpus, selector, taints⟩
    exact ⟨⟨⟨⟨⟨⟨⟨⟨notMarked, notDrained⟩, notCordoned⟩, ready⟩, cpu⟩, mem⟩, gpus⟩, selector⟩, taints⟩

/-- A node that has what the workload asks for and nothing else. -/
def suitedNode (w : Workload) : Node where
  base := ⟨"n", "", "n"⟩
  status := "Ready"
  unschedulable := false
  drain := false
  cordoned := false
  cpuAllocatable := w.cpuMillicores
  cpuAllocated := 0
  memAllocatable := w.memoryBytes
  memAllocated := 0
  gpus := w.gpus
  labels := w.nodeSelector
  taints := []

theorem eligible_suitedNode (w : Workload) : Eligible w (suitedNode w) where
  schedulable := ⟨rfl, rfl, rfl⟩
  ready := rfl
  cpu := by
    simp only [freeCPU, suitedNode, Int64.sub_zero]
    exact Int64.le_refl _
  mem := by
    simp only [freeMem, suitedNode, Int64.sub_zero]
    exact Int64.le_refl _
  gpus := Int64.le_refl _
  selector := by
    intro k v wanted
    simp only [Labels.get, suitedNode, wanted, Option.getD_some]
  taints := by
    intro t member
    cases member

theorem passes_suitedNode (w : Workload) : passes w (suitedNode w) = true :=
  (passes_iff_eligible w _).mpr (eligible_suitedNode w)

/-- The node takes a replica, whatever the workload asks for. -/
theorem maxPerNode_suitedNode (w : Workload) : 0 < maxPerNode w (suitedNode w) := by
  unfold maxPerNode
  split
  · exact Nat.one_pos
  · split
    · decide
    · rename_i some
      have once : freeCPU (suitedNode w) / w.cpuMillicores = 1 := by
        simp only [freeCPU, suitedNode, Int64.sub_zero]
        rw [Int64.div_self, if_neg some]
      rw [once]
      decide

/-! ## Plans over any order of the nodes -/

/-- `Plan` with the order that `score` puts the filtered nodes in left open. -/
def planBy (order : List Node → List Node) (nodes : List Node) (w : Workload) :
    Outcome Decision :=
  let filtered := filter nodes w
  if filtered.isEmpty then .ok ⟨w.base.id, [], "no node satisfies filters"⟩
  else if w.replicas < 0 then .panicked
  else .ok (placeLoop w (order filtered) w.replicas.toInt.toNat 0 [] fun _ => 0)

theorem planBy_score : planBy score = planOn := rfl

/-- A decision that places as many replicas as the eligible nodes can take. -/
structure Complete (nodes : List Node) (w : Workload) (d : Decision) : Prop where
  workload : d.workloadID = w.base.id
  indices : d.placements.map Placement.replicaIdx = List.range d.placements.length
  eligible : ∀ id ∈ d.nodeIDs, ∃ n ∈ nodes, n.base.id = id ∧ Eligible w n
  within : ∀ n ∈ nodes, d.nodeIDs.count n.base.id ≤ maxPerNode w n
  once : (∃ a ∈ w.antiAffinity, contains a w.base.name = true) →
    ∀ n ∈ nodes, d.nodeIDs.count n.base.id ≤ 1
  most : d.placements.length =
    min w.replicas.toInt.toNat ((filter nodes w).map (maxPerNode w)).sum
  missing : d.unscheduled ≠ "" ↔ d.placements.length < w.replicas.toInt.toNat

theorem length_decisionOf (w : Workload) (fit : List Node) :
    (decisionOf w fit).placements.length = fit.length := by
  simp [decisionOf]

theorem indices_decisionOf (w : Workload) (fit : List Node) :
    (decisionOf w fit).placements.map Placement.replicaIdx = List.range fit.length := by
  simp only [decisionOf, List.map_map]
  have forget : Placement.replicaIdx ∘ (fun found : Node × Nat =>
      (⟨found.1.base.id, found.2⟩ : Placement)) = Prod.snd := rfl
  rw [forget, List.zipIdx_map_snd, List.range_eq_range']

theorem unscheduled_decisionOf (w : Workload) (fit : List Node) :
    (decisionOf w fit).unscheduled ≠ "" ↔ fit.length < w.replicas.toInt.toNat := by
  unfold decisionOf
  simp only
  split
  · rename_i short
    exact ⟨fun _ => short, fun _ => by decide⟩
  · rename_i full
    exact ⟨fun named => absurd rfl named, fun short => absurd short full⟩

theorem planBy_eq {order : List Node → List Node} {nodes : List Node} {w : Workload}
    (fits : filter nodes w ≠ []) (replicas : 0 ≤ w.replicas) :
    planBy order nodes w = .ok (decisionOf w (firstFit (fun n => n.base.id) (maxPerNode w)
      (order (filter nodes w)) w.replicas.toInt.toNat fun _ => 0)) := by
  unfold planBy
  rw [if_neg (by simpa using fits), if_neg (Int32.not_lt.mpr replicas), placeLoop_eq]
  rfl

theorem maxPerNode_of_antiAffinity {w : Workload} (n : Node)
    (affinity : ∃ a ∈ w.antiAffinity, contains a w.base.name = true) : maxPerNode w n = 1 := by
  unfold maxPerNode
  rw [if_pos (List.any_eq_true.mpr affinity)]

/-- The nodes that first-fit filling chooses in any order of the filtered nodes. -/
theorem eligible_of_fit {nodes scored : List Node} {w : Workload} {n : Node} {count : Nat}
    (permutes : scored.Perm (filter nodes w))
    (isChosen : n ∈ firstFit (fun n => n.base.id) (maxPerNode w) scored count fun _ => 0) :
    n ∈ nodes ∧ Eligible w n := by
  obtain ⟨member, fits⟩ := List.mem_filter.mp (permutes.mem_iff.mp (mem_firstFit isChosen))
  exact ⟨member, (passes_iff_eligible w n).mp fits⟩

theorem count_fit_le {nodes scored : List Node} {w : Workload}
    (distinct : (nodes.map fun n => n.base.id).Nodup) (permutes : scored.Perm (filter nodes w))
    (count : Nat) {n : Node} (member : n ∈ nodes) :
    ((firstFit (fun n => n.base.id) (maxPerNode w) scored count fun _ => 0).map
      fun n => n.base.id).count n.base.id ≤ maxPerNode w n := by
  by_cases fits : passes w n = true
  · have distinctScored := distinct_of_perm distinct permutes
    have listed : n ∈ scored := permutes.mem_iff.mpr (List.mem_filter.mpr ⟨member, fits⟩)
    have most : offered (fun n => n.base.id) (maxPerNode w) scored n.base.id = maxPerNode w n :=
      offered_of_distinct distinctScored listed
    rw [← most]
    exact (count_firstFit_le _ _).trans (Nat.min_le_right _ _)
  · have unused : n.base.id ∉ (firstFit (fun n => n.base.id) (maxPerNode w) scored count
        fun _ => 0).map fun n => n.base.id := by
      intro used
      obtain ⟨other, isChosen, sameID⟩ := List.mem_map.mp used
      obtain ⟨otherMember, eligible⟩ := eligible_of_fit permutes isChosen
      have isNode : other = n := List.inj_on_of_nodup_map distinct otherMember member sameID
      rw [isNode] at eligible
      exact fits ((passes_iff_eligible w n).mpr eligible)
    rw [List.count_eq_zero.mpr unused]
    exact Nat.zero_le _

/-- Whatever the order of the filtered nodes, a plan is sound and places as many
replicas as they can take. -/
theorem plan_complete {order : List Node → List Node} {nodes : List Node} {w : Workload}
    (distinct : (nodes.map fun n => n.base.id).Nodup) (replicas : 0 ≤ w.replicas)
    (fits : filter nodes w ≠ []) (permutes : (order (filter nodes w)).Perm (filter nodes w)) :
    ∃ d, planBy order nodes w = .ok d ∧ Complete nodes w d := by
  refine ⟨_, planBy_eq fits replicas, ?_⟩
  have distinctOrder := distinct_of_perm distinct permutes
  constructor
  · rfl
  · rw [length_decisionOf]
    exact indices_decisionOf w _
  · intro id used
    rw [nodeIDs_decisionOf] at used
    obtain ⟨n, isChosen, rfl⟩ := List.mem_map.mp used
    obtain ⟨member, eligible⟩ := eligible_of_fit permutes isChosen
    exact ⟨n, member, rfl, eligible⟩
  · intro n member
    rw [nodeIDs_decisionOf]
    exact count_fit_le distinct permutes _ member
  · intro affinity n member
    rw [nodeIDs_decisionOf, ← maxPerNode_of_antiAffinity n affinity]
    exact count_fit_le distinct permutes _ member
  · rw [length_decisionOf, length_firstFit, capacity_of_distinct distinctOrder,
      (permutes.map _).sum_eq]
  · rw [length_decisionOf]
    exact unscheduled_decisionOf w _

/-- Three replicas on two nodes, listed in the order of the store or turned round. -/
theorem plan_complete_on_pair :
    (∃ d, planBy List.reverse [readyNode "n1" 1000 100, readyNode "n2" 1000 100]
        (plainWorkload "w" 3 400 40) = .ok d ∧
      Complete [readyNode "n1" 1000 100, readyNode "n2" 1000 100]
        (plainWorkload "w" 3 400 40) d) ∧
    planBy List.reverse [readyNode "n1" 1000 100, readyNode "n2" 1000 100]
        (plainWorkload "w" 3 400 40) = .ok ⟨"w", [⟨"n2", 0⟩, ⟨"n2", 1⟩, ⟨"n1", 2⟩], ""⟩ ∧
    ∃ d, planOn [readyNode "n1" 1000 100, readyNode "n2" 1000 100]
        (plainWorkload "w" 9 400 40) = .ok d ∧
      Complete [readyNode "n1" 1000 100, readyNode "n2" 1000 100]
        (plainWorkload "w" 9 400 40) d := by
  have distinct : ([readyNode "n1" 1000 100, readyNode "n2" 1000 100].map
      fun n => n.base.id).Nodup := by decide
  refine ⟨plan_complete distinct (by decide) ?_ (List.reverse_perm _), by decide +kernel,
    plan_complete distinct (by decide) ?_ (List.perm_insertionSort _ _)⟩
  · intro none
    exact absurd (congrArg List.length none) (by decide +kernel)
  · intro none
    exact absurd (congrArg List.length none) (by decide +kernel)

end MiniCloud.Scheduler
