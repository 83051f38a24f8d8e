import MiniCloud.Autoscale.Controller
import MiniCloud.Controller.Pass
import MiniCloud.Controller.Placements
import MiniCloud.LoadBalancer.Serving

/-!
# The platform as a whole

The components share one store: users write workloads and services, node agents write node
records, the autoscaler writes replica counts, the controller and the scheduler write
placements, and the load balancer reads them.  Each pass of a component is one step, and a
read in it returns all that the store holds or an error.  The passes run in any order, with
any store operations failing.  Whatever the order, the placements under a workload ID are
those of one plan, made for the nodes of the store at that time, and none of them is ever
marked ready; so the load balancer never has a backend.
-/

namespace MiniCloud.Platform

open MiniCloud.State
open MiniCloud.Scheduler (Decision planOn recordOf)
open MiniCloud.Controller (Ended placementOf reconcileAll reconcileEach reconcileProjects
  reconcileWorkload)
open MiniCloud.LoadBalancer (Balancer PickError Service Services Strategy pick refresh)

/-! ## More of the components -/

/-- `ReconcileOne`; `getWorkload` says for which projects the read fails. -/
def reconcileOne (env : Controller.Env) (getWorkload : String → Option StoreError) (s : Store)
    (workloadID : String) : Ended × Store :=
  match env.listProjects with
  | some e => (.failed e, s)
  | none =>
      let found := s.projects.findSome? fun p =>
        match getWorkload p with
        | some _ => none
        | none => s.getWorkload p workloadID
      match found with
      | none => (.failed ⟨"controller: workload not found"⟩, s)
      | some w => reconcileWorkload env s w

/-- `healthCheck`, for the addresses that answer a dial. -/
def healthCheck (dials : String → Bool) (b : Balancer) : Balancer :=
  { b with backends := b.backends.map fun be => { be with healthy := dials be.addr } }

/-- `UpsertNode`: the record replaces the one with its ID, or is new. -/
def upsertNode (s : Store) (n : Node) : Store :=
  { s with
    nodes := n :: s.nodes.filter fun old => old.base.id ≠ n.base.id
    distinctNodes := by
      rw [List.map_cons, List.nodup_cons]
      refine ⟨?_, s.distinctNodes.sublist (List.filter_sublist.map _)⟩
      intro member
      obtain ⟨old, kept, same⟩ := List.mem_map.mp member
      exact of_decide_eq_true (List.mem_filter.mp kept).2 same }

def setProjects (s : Store) (projects : List String) (distinct : projects.Nodup) : Store :=
  { s with projects := projects, distinctProjects := distinct }

/-! ## Steps -/

/-- The autoscaler with its store, the services, and the balancer of one of them. -/
structure System (Value : Type) where
  scaling : Autoscale.System Value
  services : Services
  balancer : Balancer

inductive Action (Value : Type) where
  /-- Writes of users and node agents. -/
  | setProjects (projects : List String) (distinct : projects.Nodup)
  | saveWorkload (w : Workload)
  | deleteWorkload (project id : String)
  | setServices (services : Services)
  | upsertNode (n : Node)
  /-- Calls on the registry of metrics and on the autoscaler. -/
  | record (call : Obs.RegistryCall Value)
  | setPolicy (pair : Autoscale.Pair) (p : Autoscale.Policy Value)
  | removePolicy (pair : Autoscale.Pair)
  | autoscale (order : List String) (answers : Autoscale.Pair → Autoscale.Answers)
  /-- Passes of the controller and calls of it and of the scheduler. -/
  | reconcileAll (env : Controller.Env)
  | reconcileOne (env : Controller.Env) (getWorkload : String → Option StoreError)
      (workloadID : String)
  | schedule (listNodes setPlacements : Option StoreError) (w : Workload)
  /-- The load balancer. -/
  | refresh (env : LoadBalancer.Env)
  | healthCheck (dials : String → Bool)

namespace System

variable {Value : Type}

def store (p : System Value) : Store := p.scaling.store

def withStore (p : System Value) (s : Store) : System Value :=
  { p with scaling := { p.scaling with store := s } }

variable [Zero Value] [Add Value] [Div Value] [NatCast Value] [LT Value] [DecidableLT Value]
  [LE Value] [DecidableLE Value]

def step (p : System Value) : Action Value → System Value
  | .setProjects projects distinct => p.withStore (setProjects p.store projects distinct)
  | .saveWorkload w => p.withStore (p.store.saveWorkload w)
  | .deleteWorkload project id => p.withStore (p.store.deleteWorkload project id)
  | .setServices services => { p with services := services }
  | .upsertNode n => p.withStore (upsertNode p.store n)
  | .record call =>
      { p with scaling :=
        { p.scaling with metrics := Autoscale.recordCall p.scaling.metrics call } }
  | .setPolicy pair policy =>
      { p with scaling :=
        { p.scaling with controller := p.scaling.controller.setPolicy pair policy } }
  | .removePolicy pair =>
      { p with scaling := { p.scaling with controller := p.scaling.controller.removePolicy pair } }
  | .autoscale order answers =>
      { p with scaling := Autoscale.evaluate order answers p.scaling }
  | .reconcileAll env => p.withStore (reconcileAll env p.store).2
  | .reconcileOne env getWorkload id => p.withStore (reconcileOne env getWorkload p.store id).2
  | .schedule listNodes setPlacements w =>
      p.withStore (Scheduler.reconcile listNodes setPlacements p.store w).2
  | .refresh env => { p with balancer := refresh env p.store p.services p.balancer }
  | .healthCheck dials => { p with balancer := healthCheck dials p.balancer }

def run (p : System Value) (actions : List (Action Value)) : System Value :=
  actions.foldl step p

end System

/-! ## What a step does to the placements -/

/-- The placements are those of a plan for the nodes. -/
def PlannedOn (nodes : List Node) (id : String) (ps : List Placement) : Prop :=
  ∃ (w : Workload) (d : Decision), w.base.id = id ∧ planOn nodes w = .ok d ∧
    (ps = d.placements.map (placementOf w) ∨ ps = d.placements.map (recordOf w))

/-- A step keeps the placements under an ID or replaces them by a plan for the nodes. -/
def Replans (nodes : List Node) (s next : Store) : Prop :=
  ∀ id, next.placements id = s.placements id ∨ PlannedOn nodes id (next.placements id)

theorem Replans.of_same {nodes : List Node} {s next : Store}
    (same : next.placements = s.placements) : Replans nodes s next :=
  fun id => .inl (congrFun same id)

theorem Replans.trans {nodes : List Node} {s middle next : Store}
    (first : Replans nodes s middle) (second : Replans nodes middle next) :
    Replans nodes s next := by
  intro id
  rcases second id with same | planned
  · rw [same]
    exact first id
  · exact .inr planned

theorem Replans.of_setPlacements {nodes : List Node} {s next : Store} {w : Workload}
    {ps : List Placement} (changed : next.placements = (s.setPlacements w.base.id ps).placements)
    (planned : PlannedOn nodes w.base.id ps) : Replans nodes s next := by
  intro id
  rw [changed]
  by_cases same : id = w.base.id
  · subst same
    rw [Store.setPlacements_self]
    exact .inr planned
  · exact .inl (Store.setPlacements_ne s ps same)

theorem replans_reconcileWorkload (env : Controller.Env) (s : Store) (w : Workload) :
    Replans s.nodes s (reconcileWorkload env s w).2 ∧
      (reconcileWorkload env s w).2.nodes = s.nodes := by
  have reconciled := Controller.reconciled_reconcileWorkload env s w
  generalize reconcileWorkload env s w = result at reconciled ⊢
  obtain ⟨ended, next⟩ := result
  refine ⟨?_, reconciled.kept.nodes⟩
  cases reconciled with
  | unread failed => exact .of_same rfl
  | panicked planned => exact .of_same rfl
  | unplaced planned unplaced samePlacements kept => exact .of_same samePlacements
  | unstored planned placed failed => exact .of_same rfl
  | @stored d _ _ planned placed placements kept noPanic =>
      exact .of_setPlacements placements ⟨w, d, rfl, planned, .inl rfl⟩

theorem replans_reconcileEach (env : Controller.Env) (s : Store) (ws : List Workload) :
    Replans s.nodes s (reconcileEach env s ws).2 ∧ (reconcileEach env s ws).2.nodes = s.nodes := by
  induction ws generalizing s with
  | nil => exact ⟨.of_same rfl, rfl⟩
  | cons w ws ih =>
      obtain ⟨first, sameNodes⟩ := replans_reconcileWorkload env s w
      rw [Controller.reconcileEach_cons]
      split
      · exact ⟨first, sameNodes⟩
      · obtain ⟨later, laterNodes⟩ := ih (reconcileWorkload env s w).2
        rw [sameNodes] at later laterNodes
        exact ⟨first.trans later, laterNodes⟩

theorem replans_reconcileProjects (env : Controller.Env) (s : Store) (projects : List String) :
    Replans s.nodes s (reconcileProjects env s projects).2 ∧
      (reconcileProjects env s projects).2.nodes = s.nodes := by
  induction projects generalizing s with
  | nil => exact ⟨.of_same rfl, rfl⟩
  | cons project projects ih =>
      unfold reconcileProjects
      split
      · exact ih s
      · obtain ⟨first, sameNodes⟩ := replans_reconcileEach env s (s.workloads project)
        generalize reconcileEach env s (s.workloads project) = result at first sameNodes
        obtain ⟨ended, middle⟩ := result
        have goesOn : Replans s.nodes s (reconcileProjects env middle projects).2 ∧
            (reconcileProjects env middle projects).2.nodes = s.nodes := by
          obtain ⟨later, laterNodes⟩ := ih middle
          rw [show middle.nodes = s.nodes from sameNodes] at later laterNodes
          exact ⟨first.trans later, laterNodes⟩
        cases ended with
        | ok => exact goesOn
        | failed e => exact goesOn
        | panicked => exact ⟨first, sameNodes⟩

theorem replans_reconcileAll (env : Controller.Env) (s : Store) :
    Replans s.nodes s (reconcileAll env s).2 := by
  unfold reconcileAll
  split
  · exact .of_same rfl
  · exact (replans_reconcileProjects env s s.projects).1

theorem replans_reconcileOne (env : Controller.Env) (getWorkload : String → Option StoreError)
    (s : Store) (id : String) : Replans s.nodes s (reconcileOne env getWorkload s id).2 := by
  unfold reconcileOne
  split
  · exact .of_same rfl
  dsimp only
  split
  · exact .of_same rfl
  · exact (replans_reconcileWorkload env s _).1

theorem replans_schedule (listNodes setPlacements : Option StoreError) (s : Store) (w : Workload) :
    Replans s.nodes s (Scheduler.reconcile listNodes setPlacements s w).2 := by
  unfold Scheduler.reconcile
  cases listNodes with
  | some e => exact .of_same rfl
  | none =>
      simp only [Scheduler.plan]
      cases planned : planOn s.nodes w with
      | err e => exact .of_same rfl
      | panicked => exact .of_same rfl
      | ok d =>
          cases setPlacements with
          | some e => exact .of_same rfl
          | none => exact .of_setPlacements rfl ⟨w, d, rfl, planned, .inr rfl⟩

theorem placements_evaluate {Value : Type} [Zero Value] [Add Value] [Div Value] [NatCast Value]
    [LT Value] [DecidableLT Value] (order : List String)
    (answers : Autoscale.Pair → Autoscale.Answers) (sys : Autoscale.System Value) :
    (Autoscale.evaluate order answers sys).store.placements = sys.store.placements := by
  unfold Autoscale.evaluate
  generalize order.filterMap sys.controller.specs.lookup = specs
  induction specs generalizing sys with
  | nil => rfl
  | cons spec specs ih =>
      rw [List.foldl_cons, ih]
      rcases Autoscale.evaluateOne_cases (answers spec.pair) sys spec with
        ⟨kept, _⟩ | ⟨w, replicas, _, _, _, rescaled⟩
      · rw [kept]
      · rw [rescaled]
        rfl

section Runs

variable {Value : Type} [Zero Value] [Add Value] [Div Value] [NatCast Value] [LT Value]
  [DecidableLT Value] [LE Value] [DecidableLE Value]

theorem replans_step (sys : System Value) (action : Action Value) :
    Replans sys.store.nodes sys.store (sys.step action).store := by
  cases action with
  | autoscale order answers => exact .of_same (placements_evaluate order answers sys.scaling)
  | reconcileAll env => exact replans_reconcileAll env sys.store
  | reconcileOne env getWorkload id => exact replans_reconcileOne env getWorkload sys.store id
  | schedule listNodes setPlacements w =>
      exact replans_schedule listNodes setPlacements sys.store w
  | _ => exact .of_same rfl

/-- The nodes and services are arbitrary, and nothing has been placed. -/
structure System.Fresh (sys : System Value) : Prop where
  placements : ∀ id, sys.store.placements id = []
  backends : sys.balancer.backends = []

theorem planned_of_run {start : System Value} (fresh : start.Fresh) (actions : List (Action Value))
    (id : String) :
    (start.run actions).store.placements id = [] ∨
      ∃ before after, actions = before ++ after ∧
        PlannedOn (start.run before).store.nodes id ((start.run actions).store.placements id) := by
  induction actions using List.reverseRecOn with
  | nil => exact .inl (fresh.placements id)
  | append_singleton actions action ih =>
      have isLast : start.run (actions ++ [action]) = (start.run actions).step action :=
        List.foldl_concat ..
      rw [isLast]
      rcases replans_step (start.run actions) action id with same | planned
      · rw [same]
        refine ih.imp_right ?_
        rintro ⟨before, after, rfl, planned⟩
        exact ⟨before, after ++ [action], List.append_assoc .., planned⟩
      · exact .inr ⟨actions, [action], rfl, planned⟩

/-! ## What holds of a plan -/

theorem replicas_of_planOn {nodes : List Node} {w : Workload} {d : Decision}
    (planned : planOn nodes w = .ok d) :
    d.placements.map (fun p => p.replicaIdx) = List.range d.placements.length ∧
      d.placements.length ≤ w.replicas.toInt.toNat := by
  cases Scheduler.Planned.of_planOn planned with
  | nothing noFit => exact ⟨rfl, Nat.zero_le _⟩
  | placed fits replicas =>
      constructor
      · simp only [List.map_map, List.length_map, List.length_zipIdx]
        exact (List.zipIdx_map_snd 0 _).trans (List.range_eq_range' ..).symm
      · rw [List.length_map, List.length_zipIdx, Scheduler.chosen, Library.length_firstFit]
        exact Nat.min_le_left _ _

/-- What is true of the placements stored under an ID: they belong to it, nothing is known
about their replicas yet, and the replicas are numbered from 0 on. -/
structure Sound (id : String) (ps : List Placement) : Prop where
  named : ∀ p ∈ ps, p.workloadID = id
  pending : ∀ p ∈ ps, p.status = "Pending"
  indexed : ps.map (fun p => p.replicaIdx) = List.range ps.length

theorem sound_nil (id : String) : Sound id [] := ⟨by simp, by simp, rfl⟩

theorem PlannedOn.sound {nodes : List Node} {id : String} {ps : List Placement}
    (planned : PlannedOn nodes id ps) : Sound id ps := by
  obtain ⟨w, d, rfl, isPlan, rfl | rfl⟩ := planned
  · refine ⟨?_, ?_, ?_⟩
    · simp [placementOf]
    · simp [placementOf]
    · rw [List.map_map, List.length_map]
      exact (replicas_of_planOn isPlan).1
  · refine ⟨?_, ?_, ?_⟩
    · simp [recordOf]
    · simp [recordOf]
    · rw [List.map_map, List.length_map]
      exact (replicas_of_planOn isPlan).1

/-- In whatever order the passes run and whatever fails, the placements stored under a
workload ID are those of one plan, made for the nodes that the store held at some earlier
point; they belong to the ID, are pending, and number the replicas from 0 on. -/
theorem stored_placements_planned {start : System Value} (fresh : start.Fresh)
    (actions : List (Action Value)) (id : String) :
    Sound id ((start.run actions).store.placements id) ∧
      ((start.run actions).store.placements id = [] ∨
        ∃ before after, actions = before ++ after ∧
          PlannedOn (start.run before).store.nodes id
            ((start.run actions).store.placements id)) := by
  have planned := planned_of_run fresh actions id
  refine ⟨?_, planned⟩
  rcases planned with empty | ⟨before, after, _, isPlanned⟩
  · rw [empty]
    exact sound_nil id
  · exact isPlanned.sound

/-! ## The load balancer -/

theorem addresses_eq_nil {env : LoadBalancer.Env} {s : Store} {svc : Service}
    (pending : ∀ p ∈ s.placements svc.workloadID, p.status = "Pending") :
    LoadBalancer.addresses env s svc = [] := by
  unfold LoadBalancer.addresses
  rw [List.map_eq_nil_iff, List.filter_eq_nil_iff]
  cases env.getPlacements svc.workloadID with
  | some e => simp
  | none =>
      intro p stored
      rw [pending p stored]
      decide

theorem backends_refresh {env : LoadBalancer.Env} {s : Store} {services : Services} {b : Balancer}
    (empty : b.backends = [])
    (pending : ∀ id, ∀ p ∈ s.placements id, p.status = "Pending") :
    (refresh env s services b).backends = [] := by
  unfold refresh
  split
  · exact empty
  split
  · exact empty
  · exact List.map_eq_nil_iff.mpr (addresses_eq_nil (pending _))

theorem backends_step {sys : System Value} (empty : sys.balancer.backends = [])
    (pending : ∀ id, ∀ p ∈ sys.store.placements id, p.status = "Pending")
    (action : Action Value) : (sys.step action).balancer.backends = [] := by
  cases action with
  | refresh env => exact backends_refresh empty pending
  | healthCheck dials => exact List.map_eq_nil_iff.mpr empty
  | _ => exact empty

theorem owned_web :
    ∀ w ∈ [Scheduler.plainWorkload "web" 1 100 10], w.base.projectID = "p" := by
  decide

/-- No component ever marks a placement as ready, so in every run the load balancer has no
backend, and every connection is turned away. -/
theorem balancer_has_no_backend {start : System Value} (fresh : start.Fresh)
    (actions : List (Action Value)) :
    (start.run actions).balancer.backends = [] ∧
      ∀ strategy clock, pick strategy clock (start.run actions).balancer.backends =
        .error .noHealthyBackends := by
  suffices empty : (start.run actions).balancer.backends = [] by
    refine ⟨empty, fun strategy clock => ?_⟩
    rw [empty]
    rfl
  induction actions using List.reverseRecOn with
  | nil => exact fresh.backends
  | append_singleton actions action ih =>
      have isLast : start.run (actions ++ [action]) = (start.run actions).step action :=
        List.foldl_concat ..
      rw [isLast]
      refine backends_step ih ?_ action
      intro id
      rcases planned_of_run fresh actions id with none | ⟨before, after, _, isPlanned⟩
      · rw [none]
        exact fun p stored => absurd stored List.not_mem_nil
      · exact isPlanned.sound.pending

end Runs

/-! ## A cluster with one node, one workload and one service -/

def webSystem : System Int where
  scaling := ⟨⟨∅, ∅⟩, ∅, Controller.oneProject [Scheduler.readyNode "n1" 1000 100]
    [Scheduler.plainWorkload "web" 1 100 10] (fun _ => []) Controller.distinct_n1 owned_web, []⟩
  services := fun _ => [⟨⟨"svc", "p", "svc"⟩, "web", 80⟩]
  balancer := ⟨"svc", []⟩

theorem fresh_webSystem : webSystem.Fresh := ⟨fun _ => rfl, rfl⟩

/-- A pass of the controller and a refresh. -/
def webActions : List (Action Int) :=
  [.reconcileAll Controller.Env.calm, .refresh ⟨none, fun _ => none, fun _ => none⟩]

theorem stored_placements_planned_web :
    ((webSystem.run webActions).store.placements "web").map (fun p => p.nodeID) = ["n1"] ∧
      Sound "web" ((webSystem.run webActions).store.placements "web") :=
  ⟨by decide +kernel, (stored_placements_planned fresh_webSystem webActions "web").1⟩

theorem balancer_has_no_backend_web :
    pick .roundRobin 0 (webSystem.run webActions).balancer.backends = .error .noHealthyBackends :=
  (balancer_has_no_backend fresh_webSystem webActions).2 .roundRobin 0

end MiniCloud.Platform
