import MiniCloud.Library.Runs
import MiniCloud.Library.Slices
import MiniCloud.Library.Slots
import MiniCloud.LoadBalancer.Refresh

/-!
# A load balancer at work

Connections, the refreshes and the probes of a balancer share its slice of backends.
`handle` keeps a pointer into the array of the slice for the whole connection, and
`refresh` empties the slice and fills it again in place.

The mutex orders picks, refreshes and probes among each other; the steps of `handle`
behind `pick` do not take it.  Every order of all steps is allowed here.  The outcome
of a dial or probe counts from the step that records it.
-/

namespace MiniCloud.LoadBalancer

open MiniCloud.Library MiniCloud.State

/-- The strategies; any other text is treated like `round_robin`. -/
inductive Strategy where
  | roundRobin
  | leastConnections
  deriving DecidableEq, Repr

inductive PickError where
  /-- `lb: no healthy backends` -/
  | noHealthyBackends
  /-- The panic of an index that is negative. -/
  | indexOutOfRange
  deriving DecidableEq, Repr

/-- The healthy backends, with their places. -/
def healthy (backends : List Backend) : List (Backend × Nat) :=
  backends.zipIdx.filter fun be => be.1.healthy

/-- One round of the search for the fewest connections. -/
def fewer (best be : Backend × Nat) : Backend × Nat :=
  if be.1.conns < best.1.conns then be else best

/-- The place of the backend for the next connection. -/
def pick (strategy : Strategy) (clock : Int) (backends : List Backend) : Except PickError Nat :=
  match healthy backends with
  | [] => .error .noHealthyBackends
  | first :: rest =>
      match strategy with
      | .leastConnections => .ok (rest.foldl fewer first).2
      | .roundRobin =>
          let idx := clock.tmod (first :: rest).length
          if idx < 0 then .error .indexOutOfRange
          else
            match (first :: rest)[idx.toNat]? with
            | none => .error .indexOutOfRange
            | some be => .ok be.2

theorem fewer_mem {first : Backend × Nat} {rest : List (Backend × Nat)} :
    rest.foldl fewer first ∈ first :: rest := by
  induction rest generalizing first with
  | nil => exact List.mem_singleton_self first
  | cons be rest ih =>
      rw [List.foldl_cons]
      have chosen : fewer first be = be ∨ fewer first be = first := by
        unfold fewer
        exact ite_eq_or_eq _ _ _
      have among : rest.foldl fewer (fewer first be) ∈ fewer first be :: rest := ih
      rcases List.mem_cons.mp among with isFirst | later
      · rw [isFirst]
        rcases chosen with isNew | isOld
        · rw [isNew]
          exact List.mem_cons_of_mem _ List.mem_cons_self
        · rw [isOld]
          exact List.mem_cons_self
      · exact List.mem_cons_of_mem _ (List.mem_cons_of_mem _ later)

theorem pick_mem {strategy : Strategy} {clock : Int} {backends : List Backend} {i : Nat}
    (picked : pick strategy clock backends = .ok i) : ∃ be, (be, i) ∈ healthy backends := by
  unfold pick at picked
  split at picked
  · exact absurd picked nofun
  · rename_i first rest isHealthy
    rw [isHealthy]
    cases strategy with
    | leastConnections =>
        have isPlace : (rest.foldl fewer first).2 = i := Except.ok.inj picked
        rw [← isPlace]
        exact ⟨_, fewer_mem⟩
    | roundRobin =>
        dsimp only at picked
        split at picked
        · exact absurd picked nofun
        · split at picked
          · exact absurd picked nofun
          · rename_i be found
            rw [← Except.ok.inj picked]
            exact ⟨_, List.mem_of_getElem? found⟩

/-- What is picked is in the list and healthy. -/
theorem pick_healthy {strategy : Strategy} {clock : Int} {backends : List Backend} {i : Nat}
    (picked : pick strategy clock backends = .ok i) :
    ∃ be, backends[i]? = some be ∧ be.healthy = true := by
  obtain ⟨be, member⟩ := pick_mem picked
  obtain ⟨inList, isHealthy⟩ := List.mem_filter.mp member
  exact ⟨be, List.mem_zipIdx_iff_getElem?.mp inList, isHealthy⟩

/-- How far a call of `handle` is; the addresses are those it has dialed. -/
inductive Stage where
  | picked
  | counted
  | dialing (addr : String)
  | forwarding (addr : String)
  | failed (addr : String)
  | done
  deriving DecidableEq, Repr

def Stage.addr : Stage → Option String
  | .dialing addr | .forwarding addr | .failed addr => some addr
  | .picked | .counted | .done => none

/-- A call of `handle`, with the pointer from `pick`. -/
structure Handle where
  backend : Pointer
  stage : Stage
  deriving DecidableEq, Repr

structure Serving where
  pool : Slice Backend
  calls : List Handle
  /-- The addresses whose last dial or probe failed. -/
  dead : List String

namespace Serving

def backends (s : Serving) : List Backend := s.pool.elements

def addrs (s : Serving) : List String := s.backends.map Backend.addr

def start : Serving := ⟨.empty, [], []⟩

/-- No call of `handle` is in progress. -/
def Quiet (s : Serving) : Prop := ∀ call ∈ s.calls, call.stage = .done

end Serving

/-- The steps of `handle` behind `pick`. -/
inductive HandleStep where
  | increment
  | dial
  | connect
  | refuse
  | decrement
  deriving DecidableEq, Repr

inductive Action where
  | pick (clock : Int)
  | handle (call : Nat) (act : HandleStep)
  | refresh (addrs : List String)
  | probe (index : Nat) (answered : Bool)
  deriving DecidableEq, Repr

/-- What a step of `handle` does: its new stage, what it writes through the pointer,
and the outcome of its dial. -/
structure Progress where
  stage : Stage
  change : Backend → Backend
  outcome : Option (String × Bool)

def Handle.progress (pool : Slice Backend) (call : Handle) : HandleStep → Option Progress
  | .increment =>
      match call.stage with
      | .picked => some ⟨.counted, fun be => { be with conns := be.conns + 1 }, none⟩
      | _ => none
  | .dial =>
      match call.stage with
      | .counted => (pool.load call.backend).map fun be => ⟨.dialing be.addr, id, none⟩
      | _ => none
  | .connect =>
      match call.stage with
      | .dialing addr => some ⟨.forwarding addr, id, some (addr, true)⟩
      | _ => none
  | .refuse =>
      match call.stage with
      | .dialing addr =>
          some ⟨.failed addr, fun be => { be with healthy := false }, some (addr, false)⟩
      | _ => none
  | .decrement =>
      match call.stage with
      | .forwarding _ | .failed _ =>
          some ⟨.done, fun be => { be with conns := be.conns - 1 }, none⟩
      | _ => none

/-- The addresses known to be dead after one more outcome. -/
def note (dead : List String) : Option (String × Bool) → List String
  | none => dead
  | some (addr, true) => dead.filter fun other => other ≠ addr
  | some (addr, false) => addr :: dead

/-- The cells that `append` allocates and does not fill. -/
def unused (grow : Nat → Nat) (len : Nat) : List Backend := List.replicate (grow len) ⟨"", 0, false⟩

namespace Serving

def advance (s : Serving) (i : Nat) (call : Handle) (p : Progress) : Serving where
  pool := s.pool.store call.backend p.change
  calls := s.calls.set i ⟨call.backend, p.stage⟩
  dead := note s.dead p.outcome

/-- The end of `refresh`, under the mutex. -/
def refill (grow : Nat → Nat) (s : Serving) (addrs : List String) : Serving where
  pool := s.pool.refill (unused grow) (addrs.map fun a => ⟨a, 0, true⟩)
  calls := s.calls
  dead := s.dead

/-- One round of `healthCheck`. -/
def probe (s : Serving) (i : Nat) (answered : Bool) (be : Backend) : Serving where
  pool := s.pool.store ⟨s.pool.array, i⟩ fun be => { be with healthy := answered }
  calls := s.calls
  dead := note s.dead (some (be.addr, answered))

end Serving

/-- One step; `grow` says how many cells a new array has to spare. -/
def step (strategy : Strategy) (grow : Nat → Nat) (s : Serving) : Action → Option Serving
  | .pick clock =>
      match pick strategy clock s.backends with
      | .ok i => some { s with calls := s.calls ++ [⟨⟨s.pool.array, i⟩, .picked⟩] }
      | .error .noHealthyBackends => some s
      | .error .indexOutOfRange => none
  | .handle i act =>
      s.calls[i]?.bind fun call => (call.progress s.pool act).map fun p => s.advance i call p
  | .refresh addrs => some (s.refill grow addrs)
  | .probe i answered => s.backends[i]?.map fun be => s.probe i answered be

/-- A refresh of the balancer is the step with the addresses it finds, if it finds
the service. -/
theorem refresh_refill (grow : Nat → Nat) (s : Serving) (env : Env) (store : Store)
    (services : Services) (service : String) (svc : Service) (projects : env.listProjects = none)
    (found : findService env services service store.projects = some svc) :
    (refresh env store services ⟨service, s.backends⟩).backends =
      (s.refill grow (addresses env store svc)).backends := by
  have filled : (s.refill grow (addresses env store svc)).backends =
      (addresses env store svc).map fun a => ⟨a, 0, true⟩ :=
    Slice.elements_refill _ _ _
  rw [filled]
  unfold refresh
  simp only [projects, found]

/-! ## What one step changes -/

section Steps

variable {strategy : Strategy} {grow : Nat → Nat} {s t : Serving}

theorem step_pick {clock : Int} (stepped : step strategy grow s (.pick clock) = some t) :
    t = s ∨ ∃ i be, s.backends[i]? = some be ∧
      t = { s with calls := s.calls ++ [⟨⟨s.pool.array, i⟩, .picked⟩] } := by
  unfold step at stepped
  dsimp only at stepped
  split at stepped
  · rename_i i picked
    obtain ⟨be, inList, _⟩ := pick_healthy picked
    exact Or.inr ⟨i, be, inList, (Option.some.inj stepped).symm⟩
  · exact Or.inl (Option.some.inj stepped).symm
  · exact absurd stepped nofun

theorem step_handle {i : Nat} {act : HandleStep}
    (stepped : step strategy grow s (.handle i act) = some t) :
    ∃ call p, s.calls[i]? = some call ∧ call.progress s.pool act = some p ∧
      t = s.advance i call p := by
  obtain ⟨call, current, moved⟩ := Option.bind_eq_some_iff.mp stepped
  obtain ⟨p, progresses, isNext⟩ := Option.map_eq_some_iff.mp moved
  exact ⟨call, p, current, progresses, isNext.symm⟩

theorem step_probe {i : Nat} {answered : Bool}
    (stepped : step strategy grow s (.probe i answered) = some t) :
    ∃ be, s.backends[i]? = some be ∧ t = s.probe i answered be := by
  obtain ⟨be, inList, isNext⟩ := Option.map_eq_some_iff.mp stepped
  exact ⟨be, inList, isNext.symm⟩

end Steps

/-! ## Where the pointers of the calls point -/

/-- The pointer of a call is to a backend of the list, and the call has dialed no other
address than that of the backend. -/
def Handle.Held (array : Nat) (addrs : List String) (call : Handle) : Prop :=
  call.stage = .done ∨
    call.backend.array = array ∧
      ∃ addr, addrs[call.backend.index]? = some addr ∧ ∀ dialed ∈ call.stage.addr, dialed = addr

/-- All calls are held, and no address is in the list twice. -/
structure Serving.Anchored (s : Serving) : Prop where
  held : ∀ call ∈ s.calls, call.Held s.pool.array s.addrs
  distinct : s.addrs.Nodup

/-- A refresh that keeps the pointers: of distinct addresses, and either no call is in
progress or the addresses are those of before. -/
def Orderly (s : Serving) : Action → Prop
  | .refresh addrs => addrs.Nodup ∧ (s.Quiet ∨ addrs = s.addrs)
  | _ => True

theorem orderly_of_refresh {s : Serving} {action : Action}
    (refreshes : ∀ addrs, action = .refresh addrs → addrs.Nodup ∧ (s.Quiet ∨ addrs = s.addrs)) :
    Orderly s action := by
  cases action with
  | refresh addrs => exact refreshes addrs rfl
  | pick clock => trivial
  | handle i act => trivial
  | probe i answered => trivial

/-- The steps that a call can take, each from its stage. -/
inductive Handle.Moves (pool : Slice Backend) (call : Handle) : Progress → Prop where
  | increment (stage : call.stage = .picked) :
      call.Moves pool ⟨.counted, fun be => { be with conns := be.conns + 1 }, none⟩
  | dial (stage : call.stage = .counted) (be : Backend)
      (loaded : pool.load call.backend = some be) : call.Moves pool ⟨.dialing be.addr, id, none⟩
  | connect (addr : String) (stage : call.stage = .dialing addr) :
      call.Moves pool ⟨.forwarding addr, id, some (addr, true)⟩
  | refuse (addr : String) (stage : call.stage = .dialing addr) :
      call.Moves pool ⟨.failed addr, fun be => { be with healthy := false }, some (addr, false)⟩
  | decrement (addr : String) (stage : call.stage = .forwarding addr ∨ call.stage = .failed addr) :
      call.Moves pool ⟨.done, fun be => { be with conns := be.conns - 1 }, none⟩

theorem moves_of_progress {pool : Slice Backend} {call : Handle} {act : HandleStep} {p : Progress}
    (progresses : call.progress pool act = some p) : call.Moves pool p := by
  unfold Handle.progress at progresses
  cases act with
  | increment =>
      dsimp only at progresses
      split at progresses
      · rename_i stage
        cases Option.some.inj progresses
        exact .increment stage
      · exact absurd progresses nofun
  | dial =>
      dsimp only at progresses
      split at progresses
      · rename_i stage
        obtain ⟨be, loaded, isProgress⟩ := Option.map_eq_some_iff.mp progresses
        cases isProgress
        exact .dial stage be loaded
      · exact absurd progresses nofun
  | connect =>
      dsimp only at progresses
      split at progresses
      · rename_i addr stage
        cases Option.some.inj progresses
        exact .connect addr stage
      · exact absurd progresses nofun
  | refuse =>
      dsimp only at progresses
      split at progresses
      · rename_i addr stage
        cases Option.some.inj progresses
        exact .refuse addr stage
      · exact absurd progresses nofun
  | decrement =>
      dsimp only at progresses
      split at progresses
      · rename_i addr stage
        cases Option.some.inj progresses
        exact .decrement addr (Or.inl stage)
      · rename_i addr stage
        cases Option.some.inj progresses
        exact .decrement addr (Or.inr stage)
      · exact absurd progresses nofun

section Anchored

variable {strategy : Strategy} {grow : Nat → Nat} {s t : Serving} {call : Handle} {p : Progress}

theorem Handle.Moves.active {pool : Slice Backend} (moves : call.Moves pool p) :
    call.stage ≠ .done := by
  cases moves with
  | increment stage => simp [stage]
  | dial stage => simp [stage]
  | connect addr stage => simp [stage]
  | refuse addr stage => simp [stage]
  | decrement addr stage =>
      rcases stage with stage | stage
      · simp [stage]
      · simp [stage]

/-- No step of a call writes an address. -/
theorem Handle.Moves.keeps_addr {pool : Slice Backend} (moves : call.Moves pool p) (be : Backend) :
    (p.change be).addr = be.addr := by
  cases moves with
  | increment => rfl
  | dial => rfl
  | connect => rfl
  | refuse => rfl
  | decrement => rfl

theorem addrs_store {change : Backend → Backend} (i : Nat)
    (keeps : ∀ be, (change be).addr = be.addr) (pool : Slice Backend) :
    (pool.store ⟨pool.array, i⟩ change).elements.map Backend.addr =
      pool.elements.map Backend.addr := by
  rw [Slice.elements_store]
  apply List.ext_getElem?
  intro j
  rw [List.getElem?_map, List.getElem?_map, List.getElem?_modify]
  cases pool.elements[j]? with
  | none => rfl
  | some be =>
      apply congrArg some
      dsimp only
      split
      · exact keeps be
      · rfl

namespace Serving

/-- The place of a call in progress. -/
theorem Anchored.slot (anchored : s.Anchored) (member : call ∈ s.calls)
    (active : call.stage ≠ .done) :
    ∃ be, call.backend = ⟨s.pool.array, call.backend.index⟩ ∧
      s.backends[call.backend.index]? = some be ∧ ∀ dialed ∈ call.stage.addr, dialed = be.addr := by
  rcases anchored.held call member with isDone | ⟨inArray, addr, inList, same⟩
  · exact absurd isDone active
  · rw [addrs, List.getElem?_map] at inList
    obtain ⟨be, isBackend, rfl⟩ := Option.map_eq_some_iff.mp inList
    refine ⟨be, ?_, isBackend, same⟩
    rw [← inArray]

theorem backends_advance (anchored : s.Anchored) {i : Nat} (current : s.calls[i]? = some call)
    (moves : call.Moves s.pool p) :
    (s.advance i call p).backends = s.backends.modify call.backend.index p.change := by
  obtain ⟨_, isPointer, _⟩ := anchored.slot (List.mem_of_getElem? current) moves.active
  unfold advance backends
  rw [isPointer]
  exact Slice.elements_store _ _ _

theorem addrs_advance (anchored : s.Anchored) {i : Nat} (current : s.calls[i]? = some call)
    (moves : call.Moves s.pool p) : (s.advance i call p).addrs = s.addrs := by
  obtain ⟨_, isPointer, _⟩ := anchored.slot (List.mem_of_getElem? current) moves.active
  unfold advance addrs backends
  rw [isPointer]
  exact addrs_store _ moves.keeps_addr _

theorem backends_refill (grow : Nat → Nat) (s : Serving) (addrs : List String) :
    (s.refill grow addrs).backends = addrs.map fun a => ⟨a, 0, true⟩ :=
  Slice.elements_refill _ _ _

theorem addrs_refill (grow : Nat → Nat) (s : Serving) (addrs : List String) :
    (s.refill grow addrs).addrs = addrs := by
  rw [Serving.addrs, backends_refill, List.map_map]
  exact List.map_id' addrs

theorem backends_probe (s : Serving) (i : Nat) (answered : Bool) (be : Backend) :
    (s.probe i answered be).backends =
      s.backends.modify i fun be => { be with healthy := answered } :=
  Slice.elements_store _ _ _

theorem addrs_probe (s : Serving) (i : Nat) (answered : Bool) (be : Backend) :
    (s.probe i answered be).addrs = s.addrs :=
  @addrs_store (fun be => { be with healthy := answered }) i (fun _ => rfl) s.pool

theorem anchored_start : start.Anchored := ⟨nofun, List.nodup_nil⟩

theorem anchored_pick (anchored : s.Anchored) {i : Nat} {be : Backend}
    (inList : s.backends[i]? = some be) :
    Anchored { s with calls := s.calls ++ [⟨⟨s.pool.array, i⟩, .picked⟩] } := by
  refine ⟨each_concat anchored.held ?_, anchored.distinct⟩
  refine Or.inr ⟨rfl, be.addr, ?_, nofun⟩
  rw [addrs, List.getElem?_map]
  exact congrArg (Option.map Backend.addr) inList

theorem anchored_advance (anchored : s.Anchored) {i : Nat} (current : s.calls[i]? = some call)
    (moves : call.Moves s.pool p) : (s.advance i call p).Anchored := by
  have member : call ∈ s.calls := List.mem_of_getElem? current
  obtain ⟨be, isPointer, inList, same⟩ := anchored.slot member moves.active
  have inAddrs : s.addrs[call.backend.index]? = some be.addr := by
    rw [addrs, List.getElem?_map, inList]
    rfl
  have inArray : call.backend.array = s.pool.array := congrArg Pointer.array isPointer
  have moved : Handle.Held s.pool.array s.addrs ⟨call.backend, p.stage⟩ := by
    -- The only address that a step adds to its stage is the one it reads from the backend.
    cases moves with
    | increment stage => exact Or.inr ⟨inArray, be.addr, inAddrs, nofun⟩
    | dial stage read loaded =>
        rw [isPointer, Slice.load_element inList] at loaded
        have isRead : be = read := Option.some.inj loaded
        refine Or.inr ⟨inArray, be.addr, inAddrs, ?_⟩
        intro dialed isDialed
        rw [isRead]
        exact (Option.some.inj isDialed).symm
    | connect addr stage =>
        rw [stage] at same
        exact Or.inr ⟨inArray, be.addr, inAddrs, same⟩
    | refuse addr stage =>
        rw [stage] at same
        exact Or.inr ⟨inArray, be.addr, inAddrs, same⟩
    | decrement addr stage => exact Or.inl rfl
  have sameAddrs : (s.advance i call p).addrs = s.addrs := addrs_advance anchored current moves
  constructor
  · rw [sameAddrs]
    exact each_set anchored.held moved
  · rw [sameAddrs]
    exact anchored.distinct

theorem anchored_refill (anchored : s.Anchored) {addrs : List String} (distinct : addrs.Nodup)
    (orderly : s.Quiet ∨ addrs = s.addrs) : (s.refill grow addrs).Anchored := by
  refine ⟨?_, ?_⟩
  · intro call member
    rw [addrs_refill]
    rcases orderly with quiet | same
    · exact Or.inl (quiet call member)
    · have fits : (addrs.map fun a => (⟨a, 0, true⟩ : Backend)).length ≤ s.pool.cells.length := by
        rw [List.length_map, same, Serving.addrs, List.length_map, backends, Slice.length_elements]
        exact s.pool.fits
      have sameArray : (s.refill grow addrs).pool.array = s.pool.array := Slice.array_refill fits
      rw [sameArray, same]
      exact anchored.held call member
  · rw [addrs_refill]
    exact distinct

theorem anchored_probe (anchored : s.Anchored) (i : Nat) (answered : Bool) (be : Backend) :
    (s.probe i answered be).Anchored := by
  constructor
  · rw [addrs_probe]
    exact anchored.held
  · rw [addrs_probe]
    exact anchored.distinct

/-- Orderly steps keep the pointers. -/
theorem anchored_step {action : Action} (anchored : s.Anchored) (orderly : Orderly s action)
    (stepped : step strategy grow s action = some t) : t.Anchored := by
  cases action with
  | pick clock =>
      rcases step_pick stepped with rfl | ⟨i, be, inList, rfl⟩
      · exact anchored
      · exact anchored_pick anchored inList
  | handle i act =>
      obtain ⟨call, p, current, progresses, rfl⟩ := step_handle stepped
      exact anchored_advance anchored current (moves_of_progress progresses)
  | refresh addrs =>
      obtain ⟨distinct, keeps⟩ := orderly
      rw [← Option.some.inj stepped]
      exact anchored_refill anchored distinct keeps
  | probe i answered =>
      obtain ⟨be, _, rfl⟩ := step_probe stepped
      exact anchored_probe anchored i answered be

/-- Two places of the list with one address are the same. -/
theorem Anchored.place_unique (anchored : s.Anchored) {i j : Nat} {first second : Backend}
    (inFirst : s.backends[i]? = some first) (inSecond : s.backends[j]? = some second)
    (same : first.addr = second.addr) : i = j := by
  have place {k : Nat} {be : Backend} (inList : s.backends[k]? = some be) :
      s.addrs[k]? = some be.addr := by
    rw [addrs, List.getElem?_map, inList]
    rfl
  have inside : i < s.addrs.length := (List.getElem?_eq_some_iff.mp (place inFirst)).1
  apply (List.getElem?_inj inside anchored.distinct).mp
  rw [place inFirst, place inSecond, same]

end Serving

end Anchored

end MiniCloud.LoadBalancer
