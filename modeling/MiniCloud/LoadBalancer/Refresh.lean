import MiniCloud.State.Records

/-!
# The backends of a load balancer

`refresh` looks for the service of the balancer in all projects and replaces the
backends by one for each placement of its workload that is `Ready`.  Errors of
`ListServices` and `GetPlacements` are ignored; the lists are then empty.
-/

namespace MiniCloud.LoadBalancer

open MiniCloud.State

/-- The fields of `state.Service` that the balancer reads. -/
structure Service where
  base : Base
  workloadID : String
  port : Int
  deriving DecidableEq, Repr

/-- A backend; `Weight` and `LastChange` are never read. -/
structure Backend where
  addr : String
  conns : Int32
  healthy : Bool
  deriving DecidableEq, Repr

structure Balancer where
  /-- The ID or the name of the service. -/
  service : String
  backends : List Backend
  deriving DecidableEq, Repr

/-- What the store operations answer during a refresh. -/
structure Env where
  listProjects : Option StoreError
  listServices : String → Option StoreError
  getPlacements : String → Option StoreError

/-- The part of the store that holds the services, by project. -/
abbrev Services := String → List Service

def Service.matches (svc : Service) (wanted : String) : Bool :=
  svc.base.id = wanted || svc.base.name = wanted

/-- The search of `refresh`.  The `break` leaves the inner loop only, so a later
project overrides an earlier one. -/
def findService (env : Env) (services : Services) (wanted : String) (projects : List String) :
    Option Service :=
  projects.foldl
    (fun svc p =>
      let svcs :=
        match env.listServices p with
        | some _ => []
        | none => services p
      match svcs.find? fun s => s.matches wanted with
      | some s => some s
      | none => svc)
    none

/-- The addresses of the placements that are ready. -/
def addresses (env : Env) (s : Store) (svc : Service) : List String :=
  let ps :=
    match env.getPlacements svc.workloadID with
    | some _ => []
    | none => s.placements svc.workloadID
  (ps.filter fun p => p.status = "Ready").map fun p => p.nodeID ++ ":" ++ toString svc.port

def refresh (env : Env) (s : Store) (services : Services) (b : Balancer) : Balancer :=
  match env.listProjects with
  | some _ => b
  | none =>
      match findService env services b.service s.projects with
      | none => b
      | some svc => { b with backends := (addresses env s svc).map fun a => ⟨a, 0, true⟩ }

/-- What the balancer reads of the store are the projects and the placements. -/
theorem refresh_congr {s t : Store} (sameProjects : t.projects = s.projects)
    (samePlacements : t.placements = s.placements) (env : Env) (services : Services)
    (b : Balancer) : refresh env t services b = refresh env s services b := by
  unfold refresh addresses
  rw [sameProjects, samePlacements]

/-- Of the placements it reads those of the workload of its service. -/
theorem addresses_congr {s t : Store} {svc : Service}
    (samePlacements : t.placements svc.workloadID = s.placements svc.workloadID) (env : Env) :
    addresses env t svc = addresses env s svc := by
  unfold addresses
  rw [samePlacements]

end MiniCloud.LoadBalancer
