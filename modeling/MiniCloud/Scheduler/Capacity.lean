import MiniCloud.Scheduler.Plan

/-!
# A plan and the capacity of a node

`filter` asks whether one replica fits a node, and `maxPerNode` divides the free
CPU only.  A plan therefore never asks for more CPU than a node has free; memory
and GPUs are checked for the first replica and not for the others.
-/

namespace MiniCloud.Scheduler

open MiniCloud.Library MiniCloud.State

/-- The free amounts of the node are computed without overflow. -/
structure Measured (n : Node) : Prop where
  cpu : (freeCPU n).toInt = n.cpuAllocatable.toInt - n.cpuAllocated.toInt
  mem : (freeMem n).toInt = n.memAllocatable.toInt - n.memAllocated.toInt

/-- The tests of `filter` on the resources. -/
theorem resources_of_passes {w : Workload} {n : Node} (fits : passes w n = true) :
    w.cpuMillicores ≤ freeCPU n ∧ w.memoryBytes ≤ freeMem n ∧ w.gpus ≤ n.gpus := by
  unfold passes at fits
  simp only [Bool.and_eq_true, Bool.not_eq_true', decide_eq_false_iff_not] at fits
  obtain ⟨⟨⟨⟨⟨_, cpu⟩, mem⟩, gpus⟩, _⟩, _⟩ := fits
  exact ⟨Int64.not_lt.mp cpu, Int64.not_lt.mp mem, Int64.not_lt.mp gpus⟩

theorem toInt_nonneg {request : Int64} (nonneg : 0 ≤ request) : 0 ≤ request.toInt := by
  simpa using Int64.le_iff_toInt_le.mp nonneg

/-- The quotient of non-negative words is that of the integers. -/
theorem toInt_div_of_nonneg {a b : Int64} (dividend : 0 ≤ a.toInt) (divisor : 0 < b.toInt) :
    (a / b).toInt = a.toInt / b.toInt := by
  have below := Int64.toInt_lt a
  have quotientLe : a.toInt / b.toInt ≤ a.toInt := Int.ediv_le_self _ dividend
  have quotientNonneg : 0 ≤ a.toInt / b.toInt := Int.ediv_nonneg dividend (Int.le_of_lt divisor)
  rw [Int64.toInt_div, Int.tdiv_eq_ediv_of_nonneg dividend]
  exact Int.bmod_eq_of_le (by omega) (by omega)

/-- Without anti-affinity `maxPerNode` is at most the quotient of the free CPU. -/
theorem maxPerNode_le_quotient {w : Workload} {n : Node} (positive : 0 < w.cpuMillicores.toInt)
    (free : 0 ≤ (freeCPU n).toInt)
    (noAffinity : ¬ (w.antiAffinity.any fun a => contains a w.base.name) = true) :
    (maxPerNode w n : Int) ≤ (freeCPU n).toInt / w.cpuMillicores.toInt := by
  have quotient := toInt_div_of_nonneg free positive
  have quotientNonneg : 0 ≤ (freeCPU n).toInt / w.cpuMillicores.toInt :=
    Int.ediv_nonneg free (Int.le_of_lt positive)
  have four : (4 : Int64).toInt = 4 := by decide
  have nonzero : w.cpuMillicores ≠ 0 := by
    intro zero
    rw [zero] at positive
    exact absurd positive (by decide)
  unfold maxPerNode
  rw [if_neg noAffinity, if_neg nonzero]
  simp only
  split
  · rename_i overFour
    have large := Int64.lt_iff_toInt_lt.mp overFour
    omega
  · split
    · exact quotientNonneg
    · omega

/-- Within `maxPerNode` the free CPU is not exceeded. -/
theorem cpu_of_maxPerNode {w : Workload} {n : Node} (request : 0 ≤ w.cpuMillicores)
    (fits : w.cpuMillicores ≤ freeCPU n) {k : Nat} (placed : k ≤ maxPerNode w n) :
    (k : Int) * w.cpuMillicores.toInt ≤ (freeCPU n).toInt := by
  have nonneg := toInt_nonneg request
  have oneFits := Int64.le_iff_toInt_le.mp fits
  by_cases affinity : (w.antiAffinity.any fun a => contains a w.base.name) = true
  · have atMostOne : (k : Int) ≤ 1 := by
      unfold maxPerNode at placed
      rw [if_pos affinity] at placed
      exact_mod_cast placed
    calc (k : Int) * w.cpuMillicores.toInt ≤ 1 * w.cpuMillicores.toInt :=
          Int.mul_le_mul_of_nonneg_right atMostOne nonneg
      _ ≤ (freeCPU n).toInt := by rwa [Int.one_mul]
  · rcases Int.le_iff_eq_or_lt.mp nonneg with zero | positive
    · rw [← zero, Int.mul_zero]
      exact Int.le_trans nonneg oneFits
    · have atMost := maxPerNode_le_quotient positive (Int.le_trans nonneg oneFits) affinity
      have placedInt : (k : Int) ≤ maxPerNode w n := by exact_mod_cast placed
      calc (k : Int) * w.cpuMillicores.toInt
          ≤ (freeCPU n).toInt / w.cpuMillicores.toInt * w.cpuMillicores.toInt :=
            Int.mul_le_mul_of_nonneg_right (Int.le_trans placedInt atMost) nonneg
        _ ≤ (freeCPU n).toInt := Int.ediv_mul_le _ (Int.ne_of_gt positive)

/-- A node that passes the filter can take a replica. -/
theorem maxPerNode_pos {w : Workload} {n : Node} (request : 0 ≤ w.cpuMillicores)
    (fits : w.cpuMillicores ≤ freeCPU n) : 0 < maxPerNode w n := by
  have nonneg := toInt_nonneg request
  have oneFits := Int64.le_iff_toInt_le.mp fits
  unfold maxPerNode
  split
  · exact Nat.one_pos
  · split
    · decide
    · rename_i nonzero
      have positive : 0 < w.cpuMillicores.toInt := by
        refine lt_of_le_of_ne nonneg fun zero => nonzero ?_
        exact Int64.toInt_inj.mp (zero.symm.trans (by decide))
      have quotient := toInt_div_of_nonneg (Int.le_trans nonneg oneFits) positive
      have atLeastOne : 1 ≤ (freeCPU n).toInt / w.cpuMillicores.toInt :=
        (Int.le_ediv_iff_mul_le positive).mpr (by rwa [Int.one_mul])
      simp only
      split
      · decide
      · split
        · rename_i small
          have notPositive : (freeCPU n / w.cpuMillicores).toInt ≤ 0 := by
            simpa using Int64.le_iff_toInt_le.mp small
          omega
        · omega

/-- When a node passes the filter and a replica is asked for, one is placed. -/
theorem chosen_ne_nil {nodes : List Node} {w : Workload} (request : 0 ≤ w.cpuMillicores)
    (fits : filter nodes w ≠ []) (replicas : 0 < w.replicas.toInt.toNat) :
    chosen nodes w ≠ [] := by
  obtain ⟨n, member⟩ := List.exists_mem_of_ne_nil _ fits
  have oneFits := (resources_of_passes (List.mem_filter.mp member).2).1
  exact firstFit_ne_nil (mem_score.mpr member) (maxPerNode_pos request oneFits) replicas

/-- The nodes that come before a node in the score order. -/
def ahead (nodes : List Node) (w : Workload) (n : Node) : List Node :=
  (score (filter nodes w)).takeWhile fun m => m.base.id ≠ n.base.id

/-- The replicas that the nodes before a node leave for it, up to what it may take. -/
def replicasOn (nodes : List Node) (w : Workload) (n : Node) : Nat :=
  if passes w n then
    min (maxPerNode w n) (w.replicas.toInt.toNat - ((ahead nodes w n).map (maxPerNode w)).sum)
  else 0

theorem ahead_split {nodes : List Node} {w : Workload} {n : Node}
    (distinct : (nodes.map fun n => n.base.id).Nodup) (member : n ∈ filter nodes w) :
    ∃ after, score (filter nodes w) = ahead nodes w n ++ n :: after := by
  obtain ⟨before, after, split⟩ := List.append_of_mem (mem_score.mpr member)
  have apart := distinct_of_perm distinct (score_perm (filter nodes w))
  rw [split, List.map_append, List.map_cons] at apart
  have others := (List.nodup_cons.mp (List.nodup_middle.mp apart)).1
  have isBefore : ahead nodes w n = before := by
    unfold ahead
    rw [split, List.takeWhile_append_of_pos, List.takeWhile_cons_of_neg (by simp), List.append_nil]
    intro m earlier
    refine decide_eq_true fun same => others ?_
    rw [← same]
    exact List.mem_append_left _ (List.mem_map_of_mem earlier)
  exact ⟨after, by rw [isBefore, split]⟩

/-- A plan uses a node as often as there are replicas for it. -/
theorem count_nodeIDs {nodes : List Node} {w : Workload} {d : Decision}
    (distinct : (nodes.map fun n => n.base.id).Nodup) (planned : planOn nodes w = .ok d)
    {n : Node} (member : n ∈ nodes) : d.nodeIDs.count n.base.id = replicasOn nodes w n := by
  rw [nodeIDs_of_planOn planned, replicasOn]
  split
  · rename_i fits
    obtain ⟨after, split⟩ := ahead_split distinct (List.mem_filter.mpr ⟨member, fits⟩)
    have apart := distinct_of_perm distinct (score_perm (filter nodes w))
    unfold chosen
    rw [split] at apart ⊢
    exact count_firstFit_of_distinct apart _
  · rename_i unfit
    refine List.count_eq_zero.mpr fun used => unfit ?_
    obtain ⟨other, isChosen, sameID⟩ := List.mem_map.mp used
    obtain ⟨otherMember, fits⟩ := passes_of_chosen isChosen
    rwa [List.inj_on_of_nodup_map distinct otherMember member sameID] at fits

/-- A plan uses only nodes that pass the filter. -/
theorem passes_of_used {nodes : List Node} {w : Workload} {d : Decision}
    (distinct : (nodes.map fun n => n.base.id).Nodup) (planned : planOn nodes w = .ok d)
    {n : Node} (member : n ∈ nodes) (used : n.base.id ∈ d.nodeIDs) : passes w n = true := by
  have some := List.count_pos_iff.mpr used
  rw [count_nodeIDs distinct planned member] at some
  by_contra unfit
  rw [replicasOn, if_neg unfit] at some
  cases some

/-- The replicas on each node that the decision uses are within its free amounts. -/
def WithinCapacity (nodes : List Node) (w : Workload) (d : Decision) : Prop :=
  ∀ n ∈ nodes, n.base.id ∈ d.nodeIDs →
    (d.nodeIDs.count n.base.id : Int) * w.cpuMillicores.toInt ≤
        n.cpuAllocatable.toInt - n.cpuAllocated.toInt ∧
      (d.nodeIDs.count n.base.id : Int) * w.memoryBytes.toInt ≤
        n.memAllocatable.toInt - n.memAllocated.toInt ∧
      (d.nodeIDs.count n.base.id : Int) * w.gpus.toInt ≤ n.gpus.toInt

/-- The replicas that are left for a node fit its free CPU. -/
theorem cpu_of_replicasOn {nodes : List Node} {w : Workload} {n : Node}
    (request : 0 ≤ w.cpuMillicores) (used : 0 < replicasOn nodes w n) :
    (replicasOn nodes w n : Int) * w.cpuMillicores.toInt ≤ (freeCPU n).toInt := by
  unfold replicasOn at used ⊢
  split at used
  · rename_i fits
    rw [if_pos fits]
    exact cpu_of_maxPerNode request (resources_of_passes fits).1 (Nat.min_le_left _ _)
  · cases used

/-- A plan is made, and its replicas fit the nodes exactly when the replicas that are left
for each node fit its free memory and its GPUs; the free CPU is never exceeded. -/
theorem plan_within_capacity_iff {nodes : List Node} {w : Workload}
    (distinct : (nodes.map fun n => n.base.id).Nodup) (cpuRequest : 0 ≤ w.cpuMillicores)
    (replicas : 0 ≤ w.replicas) (measured : ∀ n ∈ nodes, Measured n) :
    ∃ d, plan (.ok nodes) w = .ok d ∧
      (WithinCapacity nodes w d ↔ ∀ n ∈ nodes, 0 < replicasOn nodes w n →
        (replicasOn nodes w n : Int) * w.memoryBytes.toInt ≤
            n.memAllocatable.toInt - n.memAllocated.toInt ∧
          (replicasOn nodes w n : Int) * w.gpus.toInt ≤ n.gpus.toInt) := by
  obtain ⟨d, planned⟩ := planOn_ok nodes replicas
  refine ⟨d, planned, forall₂_congr fun n member => ?_⟩
  rw [← List.count_pos_iff, count_nodeIDs distinct planned member, ← (measured n member).cpu]
  exact forall_congr' fun used => and_iff_right (cpu_of_replicasOn cpuRequest used)

/-- A ready node without labels and taints. -/
def readyNode (id : String) (cpu mem : Int64) : Node where
  base := ⟨id, "", id⟩
  status := "Ready"
  unschedulable := false
  drain := false
  cordoned := false
  cpuAllocatable := cpu
  cpuAllocated := 0
  memAllocatable := mem
  memAllocated := 0
  gpus := 0
  labels := ∅
  taints := []

/-- A workload of the given size without constraints. -/
def plainWorkload (id : String) (replicas : Int32) (cpu mem : Int64) : Workload where
  base := ⟨id, "p", id⟩
  replicas := replicas
  cpuMillicores := cpu
  memoryBytes := mem
  gpus := 0
  nodeSelector := ∅
  tolerations := []
  antiAffinity := []
  status := ⟨false, "", 0, 0⟩

/-- Five replicas: four fit the first node, and one is left for the memory of the second. -/
theorem plan_within_capacity_on_pair :
    ∃ d, plan (.ok [readyNode "n1" 1000 1000, readyNode "n2" 1000 100])
        (plainWorkload "w" 5 250 60) = .ok d ∧
      WithinCapacity [readyNode "n1" 1000 1000, readyNode "n2" 1000 100]
        (plainWorkload "w" 5 250 60) d := by
  have measured : ∀ n ∈ [readyNode "n1" 1000 1000, readyNode "n2" 1000 100], Measured n := by
    intro n member
    rcases List.mem_pair.mp member with rfl | rfl
    · exact ⟨by decide, by decide⟩
    · exact ⟨by decide, by decide⟩
  obtain ⟨d, planned, within⟩ := @plan_within_capacity_iff
    [readyNode "n1" 1000 1000, readyNode "n2" 1000 100] (plainWorkload "w" 5 250 60)
    (by decide) (by decide) (by decide) measured
  exact ⟨d, planned, within.mpr (by decide +kernel)⟩

/-- Two replicas are packed by their CPU onto a node whose memory fits one. -/
theorem plan_exceeds_memory :
    ∃ d, plan (.ok [readyNode "n1" 4000 100]) (plainWorkload "w" 2 100 60) = .ok d ∧
      d.nodeIDs = ["n1", "n1"] ∧
      ¬ WithinCapacity [readyNode "n1" 4000 100] (plainWorkload "w" 2 100 60) d := by
  refine ⟨⟨"w", [⟨"n1", 0⟩, ⟨"n1", 1⟩], ""⟩, by decide +kernel, rfl, fun within => ?_⟩
  have fits := (within (readyNode "n1" 4000 100) List.mem_cons_self (by decide)).2.1
  exact absurd fits (by decide +kernel)

end MiniCloud.Scheduler
