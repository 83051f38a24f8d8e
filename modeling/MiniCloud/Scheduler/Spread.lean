import MiniCloud.Scheduler.Complete

/-!
# Spreading the replicas

`Plan` fills the first node of the score order up to `maxPerNode` before it looks at
the next one.  The replicas are spread over the nodes only when no node is given two
of them or when there are so many that every node is reached.  A node is what its ID
names: records that share an ID share the count of its replicas.
-/

namespace MiniCloud.Scheduler

open MiniCloud.Library MiniCloud.State

/-- No node gets two replicas while another one that could take a replica gets none. -/
def Spread (nodes : List Node) (w : Workload) (d : Decision) : Prop :=
  ∀ n ∈ nodes, ∀ m ∈ nodes, 2 ≤ d.nodeIDs.count n.base.id → passes w m = true →
    1 ≤ maxPerNode w m → d.nodeIDs.count m.base.id ≠ 0

/-- The most replicas that one of the given records allows for the ID. -/
def mostFor (w : Workload) (nodes : List Node) (id : String) : Nat :=
  offered (fun n => n.base.id) (maxPerNode w) nodes id

/-- The places on the given nodes, counted once for each ID. -/
def places (w : Workload) (nodes : List Node) : Nat :=
  ∑ id ∈ (nodes.map fun n => n.base.id).toFinset, mostFor w nodes id

/-- The replicas are more than the places before the first place of every node. -/
def ReachesAll (w : Workload) (scored : List Node) : Prop :=
  ∀ before m after, scored = before ++ m :: after → mostFor w before m.base.id < 1 →
    1 ≤ maxPerNode w m → places w before < w.replicas.toInt.toNat

/-- The replicas end before the second place of every node. -/
def NeverTwice (w : Workload) (scored : List Node) : Prop :=
  ∀ before n after, scored = before ++ n :: after → mostFor w before n.base.id < 2 →
    2 ≤ maxPerNode w n →
      w.replicas.toInt.toNat + mostFor w before n.base.id < places w before + 2

/-- With one place on each node no node is given two replicas. -/
theorem neverTwice_of_single {w : Workload} {scored : List Node}
    (single : ∀ n ∈ scored, maxPerNode w n ≤ 1) : NeverTwice w scored := by
  intro before n after split _ room
  have listed : n ∈ scored := by
    rw [split]
    exact List.mem_append_right _ List.mem_cons_self
  have one := single n listed
  omega

/-- When every place is taken every node is reached. -/
theorem reachesAll_of_full {w : Workload} {scored : List Node}
    (full : places w scored ≤ w.replicas.toInt.toNat) : ReachesAll w scored := by
  intro before m after split first room
  have more : places w before < places w (before ++ m :: after) :=
    capacity_lt_capacity (Nat.lt_of_lt_of_le first room)
  rw [← split] at more
  exact Nat.lt_of_lt_of_le more full

variable {nodes : List Node} {w : Workload} {d : Decision}

/-- The next place of a node is taken when the replicas go beyond those before it. -/
theorem le_count_iff (planned : planOn nodes w = .ok d) {before after : List Node} {n : Node}
    {place : Nat} (split : score (filter nodes w) = before ++ n :: after)
    (next : mostFor w before n.base.id < place) (allowed : place ≤ maxPerNode w n) :
    place ≤ d.nodeIDs.count n.base.id ↔
      places w before + place ≤ w.replicas.toInt.toNat + mostFor w before n.base.id := by
  rw [nodeIDs_of_planOn planned]
  unfold chosen
  rw [split]
  exact le_count_firstFit_iff next allowed _

/-- The record of the score order that offers a given place on a node. -/
theorem exists_place {id : String} {place : Nat} (positive : 0 < place)
    (allowed : place ≤ mostFor w (score (filter nodes w)) id) :
    ∃ before n after, score (filter nodes w) = before ++ n :: after ∧ n.base.id = id ∧
      mostFor w before id < place ∧ place ≤ maxPerNode w n :=
  exists_reaching positive allowed

theorem count_le_mostFor (planned : planOn nodes w = .ok d) (id : String) :
    d.nodeIDs.count id ≤ mostFor w (score (filter nodes w)) id := by
  rw [nodeIDs_of_planOn planned]
  exact (count_firstFit_le _ _).trans (Nat.min_le_right _ _)

theorem mem_of_split {before after : List Node} {n : Node}
    (split : score (filter nodes w) = before ++ n :: after) :
    n ∈ nodes ∧ passes w n = true := by
  have listed : n ∈ score (filter nodes w) := by
    rw [split]
    exact List.mem_append_right _ List.mem_cons_self
  exact List.mem_filter.mp (mem_score.mp listed)

theorem spread_iff (planned : planOn nodes w = .ok d) :
    Spread nodes w d ↔
      ReachesAll w (score (filter nodes w)) ∨ NeverTwice w (score (filter nodes w)) := by
  constructor
  · intro spread
    by_contra neither
    obtain ⟨notAll, twice⟩ := not_or.mp neither
    unfold ReachesAll at notAll
    unfold NeverTwice at twice
    push Not at notAll twice
    obtain ⟨beforeM, m, afterM, splitM, firstM, roomM, full⟩ := notAll
    obtain ⟨beforeN, n, afterN, splitN, nextN, roomN, reached⟩ := twice
    obtain ⟨memberM, fitsM⟩ := mem_of_split splitM
    have unused : ¬ 1 ≤ d.nodeIDs.count m.base.id := by
      rw [le_count_iff planned splitM firstM roomM]
      omega
    refine spread n (mem_of_split splitN).1 m memberM ?_ fitsM roomM (by omega)
    exact (le_count_iff planned splitN nextN roomN).mpr reached
  · rintro condition n memberN m memberM two fitsM roomM
    rcases condition with reaches | never
    · have listed : m ∈ score (filter nodes w) :=
        mem_score.mpr (List.mem_filter.mpr ⟨memberM, fitsM⟩)
      obtain ⟨before, first, after, split, sameID, next, room⟩ :=
        exists_place Nat.one_pos (roomM.trans (quota_le_offered listed))
      rw [← sameID] at next ⊢
      have reached := reaches before first after split next room
      have used := (le_count_iff planned split next room).mpr (by omega)
      omega
    · obtain ⟨before, second, after, split, sameID, next, room⟩ :=
        exists_place Nat.two_pos (two.trans (count_le_mostFor planned n.base.id))
      rw [← sameID] at next two
      have ended := never before second after split next room
      have reached := (le_count_iff planned split next room).mp two
      omega

/-- A plan of any nodes and replicas is made, and its replicas are spread exactly when
every node that can take one is reached or no node is given two. -/
theorem plan_spread_iff (nodes : List Node) {w : Workload} (replicas : 0 ≤ w.replicas) :
    ∃ d, plan (.ok nodes) w = .ok d ∧
      (Spread nodes w d ↔
        ReachesAll w (score (filter nodes w)) ∨ NeverTwice w (score (filter nodes w))) := by
  obtain ⟨d, planned⟩ := planOn_ok nodes replicas
  exact ⟨d, planned, spread_iff planned⟩

/-- Two replicas that fill their nodes, and eight that fill all places. -/
theorem plan_spread_when_full :
    (∃ d, plan (.ok [readyNode "n1" 1000 100, readyNode "n2" 1000 100])
        (plainWorkload "w" 2 600 40) = .ok d ∧
      Spread [readyNode "n1" 1000 100, readyNode "n2" 1000 100] (plainWorkload "w" 2 600 40) d) ∧
    ∃ d, plan (.ok [readyNode "n1" 1000 100, readyNode "n2" 1000 100])
        (plainWorkload "w" 8 0 0) = .ok d ∧
      Spread [readyNode "n1" 1000 100, readyNode "n2" 1000 100] (plainWorkload "w" 8 0 0) d := by
  have single : ∀ n ∈ [readyNode "n1" 1000 100, readyNode "n2" 1000 100],
      maxPerNode (plainWorkload "w" 2 600 40) n ≤ 1 := by decide +kernel
  constructor
  · obtain ⟨d, planned, spread⟩ := @plan_spread_iff
      [readyNode "n1" 1000 100, readyNode "n2" 1000 100] (plainWorkload "w" 2 600 40) (by decide)
    refine ⟨d, planned, spread.mpr (Or.inr (neverTwice_of_single ?_))⟩
    intro n listed
    exact single n (List.mem_filter.mp (mem_score.mp listed)).1
  · obtain ⟨d, planned, spread⟩ := @plan_spread_iff
      [readyNode "n1" 1000 100, readyNode "n2" 1000 100] (plainWorkload "w" 8 0 0) (by decide)
    exact ⟨d, planned, spread.mpr (Or.inl (reachesAll_of_full (by decide +kernel)))⟩

/-- Two replicas go to the first node although the second one is free. -/
theorem plan_packs_first_node :
    ∃ d, plan (.ok [readyNode "n1" 1000 100, readyNode "n2" 1000 100])
        (plainWorkload "w" 2 400 40) = .ok d ∧ d.nodeIDs = ["n1", "n1"] ∧
      ¬ Spread [readyNode "n1" 1000 100, readyNode "n2" 1000 100] (plainWorkload "w" 2 400 40) d := by
  refine ⟨⟨"w", [⟨"n1", 0⟩, ⟨"n1", 1⟩], ""⟩, by decide +kernel, rfl, ?_⟩
  intro spread
  have used := spread (readyNode "n1" 1000 100) List.mem_cons_self (readyNode "n2" 1000 100)
    (List.mem_cons_of_mem _ List.mem_cons_self) (by decide) (by decide +kernel) (by decide +kernel)
  exact used (by decide)

end MiniCloud.Scheduler
