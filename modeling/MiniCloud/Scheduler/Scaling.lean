import MiniCloud.Scheduler.Capacity

/-!
# Plans that stay

A plan is made anew each time, without a look at the placements that are stored.  Still it
does not move replicas without need: with the same nodes the plans for different numbers of
replicas begin alike, and nodes without a replica can be drained.
-/

namespace MiniCloud.Scheduler

open MiniCloud.Library MiniCloud.State

/-- What `Reconcile` stores, from the chosen nodes. -/
theorem placements_reconcile (s : Store) {w : Workload} (replicas : 0 ≤ w.replicas) :
    (reconcile none none s w).2.placements w.base.id =
      ((chosen s.nodes w).zipIdx 0).map fun found => recordOf w ⟨found.1.base.id, found.2⟩ := by
  have planned := planned_planOn s.nodes w
  unfold reconcile
  simp only [plan]
  generalize planOn s.nodes w = outcome at planned
  cases planned with
  | nothing noFit =>
      have none : chosen s.nodes w = [] := by
        rw [chosen, noFit]
        exact List.eq_nil_iff_forall_not_mem.mpr fun n member => by cases mem_firstFit member
      rw [none]
      exact s.setPlacements_self w.base.id _
  | negative fits negative => exact absurd replicas (Int32.not_le.mpr negative)
  | placed fits =>
      refine (s.setPlacements_self w.base.id _).trans ?_
      rw [List.map_map]
      rfl

/-! ## More or fewer replicas -/

/-- All places that the nodes have for replicas of a workload, in the order of their use. -/
def roomOn (nodes : List Node) (w : Workload) : List Node :=
  roomFor (fun n => n.base.id) (maxPerNode w) (score (filter nodes w)) fun _ => 0

theorem chosen_eq_take (nodes : List Node) (w : Workload) :
    chosen nodes w = (roomOn nodes w).take w.replicas.toInt.toNat := firstFit_eq_take _ _

theorem zipIdx_take (l : List Node) (count : Nat) :
    (l.take count).zipIdx = l.zipIdx.take count := by
  apply List.ext_getElem?
  intro i
  rw [List.getElem?_zipIdx, List.getElem?_take, List.getElem?_take, List.getElem?_zipIdx]
  split
  · rfl
  · rfl

/-- With the same nodes, what is stored for fewer replicas is the beginning of what is stored
for more: a workload that is scaled keeps the placements of all replicas that remain. -/
theorem scaling_keeps_placements (s t : Store) (sameNodes : t.nodes = s.nodes) (w : Workload)
    (r r' : Int32) (replicas : 0 ≤ r) (more : r ≤ r') :
    (reconcile none none s { w with replicas := r }).2.placements w.base.id =
      ((reconcile none none t { w with replicas := r' }).2.placements w.base.id).take
        r.toInt.toNat := by
  have fewer : r.toInt.toNat ≤ r'.toInt.toNat := Int.toNat_le_toNat (Int32.le_iff_toInt_le.mp more)
  have first : (reconcile none none s { w with replicas := r }).2.placements w.base.id = _ :=
    placements_reconcile s (w := { w with replicas := r }) replicas
  have second : (reconcile none none t { w with replicas := r' }).2.placements w.base.id = _ :=
    placements_reconcile t (w := { w with replicas := r' }) (Int32.le_trans replicas more)
  -- Neither the places nor the records depend on the number of replicas.
  have samePlaces : roomOn t.nodes { w with replicas := r' } =
      roomOn s.nodes { w with replicas := r } := by
    rw [sameNodes]
    rfl
  have cut : chosen s.nodes { w with replicas := r } =
      (chosen t.nodes { w with replicas := r' }).take r.toInt.toNat := by
    rw [chosen_eq_take, chosen_eq_take, samePlaces, List.take_take, Nat.min_eq_left fewer]
  rw [first, second, cut, ← List.map_take, zipIdx_take]
  rfl

theorem owned_nil (project : String) (w : Workload) (member : w ∈ ([] : List Workload)) :
    w.base.projectID = project :=
  absurd member List.not_mem_nil

/-- Two nodes for a workload. -/
def pair : Store where
  nodes := [readyNode "n1" 1000 100, readyNode "n2" 2000 200]
  projects := []
  workloads := fun _ => []
  placements := fun _ => []
  owned := owned_nil
  distinctNodes := by decide
  distinctProjects := List.nodup_nil

theorem scaling_keeps_placements_pair :
    (reconcile none none pair { plainWorkload "w" 0 400 40 with replicas := 2 }).2.placements "w" =
      ((reconcile none none pair
        { plainWorkload "w" 0 400 40 with replicas := 3 }).2.placements "w").take 2 :=
  scaling_keeps_placements pair pair rfl (plainWorkload "w" 0 400 40) 2 3 (by decide) (by decide)

/-! ## Nodes without replicas -/

/-- The order of `score`. -/
def Before (first second : Node) : Prop := scoreOf second ≤ scoreOf first

instance : DecidableRel Before := fun first second =>
  inferInstanceAs (Decidable (scoreOf second ≤ scoreOf first))

instance : IsTrans Node Before := ⟨fun _ _ _ first second => le_trans second first⟩

instance : Std.Total Before := ⟨fun first second => le_total (scoreOf second) (scoreOf first)⟩

theorem score_eq (nodes : List Node) : score nodes = nodes.insertionSort Before := rfl

theorem filter_orderedInsert {nodes : List Node} (sorted : nodes.Pairwise Before) (n : Node)
    (keep : Node → Bool) :
    (nodes.orderedInsert Before n).filter keep =
      if keep n then (nodes.filter keep).orderedInsert Before n else nodes.filter keep := by
  induction nodes with
  | nil => rw [List.orderedInsert_nil, List.filter_cons, List.filter_nil, List.orderedInsert_nil]
  | cons first rest ih =>
      obtain ⟨ahead, sortedRest⟩ := List.pairwise_cons.mp sorted
      by_cases inFront : Before n first
      · rw [List.orderedInsert_cons_of_le Before rest inFront, List.filter_cons]
        split
        · -- The node comes before all that are kept.
          have all : ∀ other ∈ (first :: rest).filter keep, Before n other := by
            intro other member
            rcases List.mem_cons.mp (List.mem_of_mem_filter member) with rfl | later
            · exact inFront
            · exact IsTrans.trans _ _ _ inFront (ahead other later)
          cases left : (first :: rest).filter keep with
          | nil => rfl
          | cons head tail =>
              rw [List.orderedInsert_cons_of_le Before tail
                (all head (left ▸ List.mem_cons_self))]
        · rfl
      · rw [List.orderedInsert_of_not_le Before rest inFront, List.filter_cons, ih sortedRest]
        cases kept : keep first with
        | true =>
            rw [if_pos rfl, List.filter_cons_of_pos kept,
              List.orderedInsert_of_not_le Before _ inFront]
            split
            · rfl
            · rfl
        | false =>
            rw [if_neg Bool.false_ne_true, List.filter_cons_of_neg (Bool.eq_false_iff.mp kept)]

/-- The stable sort of some of the nodes is what is left of the sort of all of them. -/
theorem score_filter (nodes : List Node) (keep : Node → Bool) :
    score (nodes.filter keep) = (score nodes).filter keep := by
  induction nodes with
  | nil => rfl
  | cons n rest ih =>
      rw [score_eq] at ih
      rw [score_eq, score_eq, List.insertionSort_cons,
        filter_orderedInsert (List.pairwise_insertionSort Before rest) n keep, ← score_eq rest, ← ih,
        List.filter_cons]
      split
      · rfl
      · rfl

/-- Drain all nodes but those to be kept. -/
def drainOthers (keep : Node → Bool) (nodes : List Node) : List Node :=
  nodes.map fun n => if keep n then n else { n with drain := true }

theorem filter_drainOthers (keep : Node → Bool) (nodes : List Node) (w : Workload) :
    filter (drainOthers keep nodes) w = (filter nodes w).filter keep := by
  induction nodes with
  | nil => rfl
  | cons n rest ih =>
      have drained : passes w { n with drain := true } = false := by simp [passes]
      have tail : (drainOthers keep rest).filter (passes w) =
          (rest.filter (passes w)).filter keep := ih
      change ((if keep n then n else { n with drain := true }) ::
        drainOthers keep rest).filter (passes w) = ((n :: rest).filter (passes w)).filter keep
      cases kept : keep n with
      | true =>
          rw [if_pos rfl, List.filter_cons, tail, List.filter_cons]
          split
          · rw [List.filter_cons_of_pos kept]
          · rfl
      | false =>
          rw [if_neg Bool.false_ne_true, List.filter_cons_of_neg (Bool.eq_false_iff.mp drained),
            tail, List.filter_cons]
          split
          · rw [List.filter_cons_of_neg (Bool.eq_false_iff.mp kept)]
          · rfl

/-- When nodes that hold no replica of a workload are drained, its plan stays as it is. -/
theorem draining_unused_nodes (s t : Store) (keep : Node → Bool)
    (drained : t.nodes = drainOthers keep s.nodes) (w : Workload) (replicas : 0 ≤ w.replicas)
    (unused : ∀ n ∈ s.nodes, keep n = false →
      ∀ p ∈ (reconcile none none s w).2.placements w.base.id, p.nodeID ≠ n.base.id) :
    (reconcile none none t w).2.placements w.base.id =
      (reconcile none none s w).2.placements w.base.id := by
  have stored := placements_reconcile s replicas
  have kept : ∀ n ∈ chosen s.nodes w, keep n = true := by
    intro n isChosen
    by_contra dropped
    obtain ⟨i, at_i⟩ := List.mem_iff_getElem?.mp isChosen
    have inPlan : recordOf w ⟨n.base.id, i⟩ ∈
        (reconcile none none s w).2.placements w.base.id := by
      rw [stored]
      exact List.mem_map.mpr ⟨(n, i), List.mk_mem_zipIdx_iff_getElem?.mpr at_i, rfl⟩
    exact unused n (passes_of_chosen isChosen).1 (Bool.eq_false_iff.mpr dropped) _ inPlan rfl
  have distinct := distinct_of_perm s.distinctNodes (score_perm (filter s.nodes w))
  have same : chosen t.nodes w = chosen s.nodes w := by
    unfold chosen at kept ⊢
    rw [drained, filter_drainOthers, score_filter, firstFit_filter distinct kept]
  rw [stored, placements_reconcile t replicas, same]

/-- The store of before, with its second node drained. -/
def pairDrained : Store :=
  { pair with
    nodes := drainOthers (fun n => n.base.id ≠ "n2") pair.nodes
    distinctNodes := by decide }

theorem draining_unused_nodes_pair :
    (reconcile none none pairDrained (plainWorkload "w" 2 400 40)).2.placements "w" =
      (reconcile none none pair (plainWorkload "w" 2 400 40)).2.placements "w" := by
  apply draining_unused_nodes pair pairDrained (fun n => n.base.id ≠ "n2") rfl
    (plainWorkload "w" 2 400 40) (by decide)
  decide +kernel

end MiniCloud.Scheduler
