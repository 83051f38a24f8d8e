import Mathlib.Algebra.Group.Nat.Defs
import MiniCloud.LoadBalancer.Serving

/-!
# The connection counts of the backends

`handle` counts its connection at the backend it points to, and takes it off when the
connection ends.  A refresh sets all counts to zero and may put another address where
the pointer points.  The counts are right as long as the list is refilled only while no
connection is open, with an address at most once.
-/

namespace MiniCloud.LoadBalancer

open MiniCloud.Library

/-- The call is between its increment and its decrement. -/
def Stage.counts : Stage → Bool
  | .picked | .done => false
  | .counted | .dialing _ | .forwarding _ | .failed _ => true

/-- The connection is to an address: the one dialed, or the one that will be. -/
def Handle.forwardsTo (pool : Slice Backend) (addr : String) (call : Handle) : Bool :=
  match call.stage with
  | .picked | .done => false
  | .counted => (pool.load call.backend).map Backend.addr = some addr
  | .dialing dialed | .forwarding dialed | .failed dialed => dialed = addr

namespace Serving

/-- The calls with a connection to an address. -/
def forwarding (s : Serving) (addr : String) : Nat :=
  s.calls.countP fun call => call.forwardsTo s.pool addr

/-- The calls that are counted at a place of the list. -/
def callsAt (s : Serving) (i : Nat) : Nat :=
  s.calls.countP fun call => call.stage.counts && call.backend.index == i

/-- Each backend counts the calls at its place. -/
def Exact (s : Serving) : Prop :=
  ∀ (i : Nat) (be : Backend), s.backends[i]? = some be → be.conns = Int32.ofNat (s.callsAt i)

/-- The list is refilled only between the connections, without an address twice. -/
def Undisturbed (s : Serving) : Action → Prop
  | .refresh addrs => addrs.Nodup ∧ s.Quiet
  | _ => True

instance (s : Serving) (action : Action) : Decidable (s.Undisturbed action) :=
  match action with
  | .refresh addrs => inferInstanceAs (Decidable (addrs.Nodup ∧ ∀ call ∈ s.calls, call.stage = .done))
  | .pick _ | .handle _ _ | .probe _ _ => inferInstanceAs (Decidable True)

variable {strategy : Strategy} {grow : Nat → Nat} {s t : Serving} {call : Handle} {p : Progress}

/-- A held call has its connection to the address of the backend it points to. -/
theorem forwardsTo_slot (anchored : s.Anchored) (member : call ∈ s.calls) {i : Nat} {be : Backend}
    (inList : s.backends[i]? = some be) :
    call.forwardsTo s.pool be.addr = (call.stage.counts && call.backend.index == i) := by
  by_cases isDone : call.stage = .done
  · simp [Handle.forwardsTo, Stage.counts, isDone]
  · obtain ⟨own, isPointer, inOwn, same⟩ := anchored.slot member isDone
    have sameAddr : own.addr = be.addr ↔ call.backend.index = i := by
      constructor
      · exact anchored.place_unique inOwn inList
      · intro isPlace
        rw [isPlace] at inOwn
        rw [Option.some.inj (inOwn.symm.trans inList)]
    have loaded : s.pool.load call.backend = some own := by
      rw [isPointer]
      exact Slice.load_element inOwn
    unfold Handle.forwardsTo Stage.counts
    cases stage : call.stage with
    | picked => rfl
    | done => rfl
    | counted => simp [loaded, sameAddr, beq_eq_decide]
    | dialing dialed =>
        have isOwn : dialed = own.addr := same dialed (congrArg Stage.addr stage)
        simp [isOwn, sameAddr, beq_eq_decide]
    | forwarding dialed =>
        have isOwn : dialed = own.addr := same dialed (congrArg Stage.addr stage)
        simp [isOwn, sameAddr, beq_eq_decide]
    | failed dialed =>
        have isOwn : dialed = own.addr := same dialed (congrArg Stage.addr stage)
        simp [isOwn, sameAddr, beq_eq_decide]

theorem forwarding_eq_callsAt (anchored : s.Anchored) {i : Nat} {be : Backend}
    (inList : s.backends[i]? = some be) : s.forwarding be.addr = s.callsAt i := by
  apply List.countP_congr
  intro call member
  rw [forwardsTo_slot anchored member inList]

/-- A step of a call writes the change of what it counts for. -/
theorem conns_balance {pool : Slice Backend} (moves : call.Moves pool p) (be : Backend) :
    (p.change be).conns + Int32.ofNat call.stage.counts.toNat =
      be.conns + Int32.ofNat p.stage.counts.toNat := by
  cases moves with
  | increment stage =>
      rw [stage]
      exact Int32.add_zero _
  | dial stage read loaded =>
      rw [stage]
      rfl
  | connect addr stage =>
      rw [stage]
      rfl
  | refuse addr stage =>
      rw [stage]
      rfl
  | decrement addr stage =>
      have wasCounted : call.stage.counts = true := by
        rcases stage with stage | stage
        · rw [stage]
          rfl
        · rw [stage]
          rfl
      rw [wasCounted]
      exact (Int32.sub_add_cancel be.conns 1).trans (Int32.add_zero be.conns).symm

theorem callsAt_advance {i : Nat} (current : s.calls[i]? = some call) (p : Progress) (j : Nat) :
    (s.advance i call p).callsAt j + (call.stage.counts && call.backend.index == j).toNat =
      s.callsAt j + (p.stage.counts && call.backend.index == j).toNat :=
  countP_set_toNat (fun call : Handle => call.stage.counts && call.backend.index == j) current

theorem exact_advance (isExact : s.Exact) (anchored : s.Anchored) {i : Nat}
    (current : s.calls[i]? = some call) (moves : call.Moves s.pool p) :
    (s.advance i call p).Exact := by
  intro j be inList
  have balance := callsAt_advance current p j
  rw [backends_advance anchored current moves] at inList
  rcases getElem?_modify_cases inList with ⟨rfl, old, inOld, rfl⟩ | ⟨different, inOther⟩
  · have before : old.conns = Int32.ofNat (s.callsAt call.backend.index) := isExact _ old inOld
    simp only [beq_self_eq_true, Bool.and_true] at balance
    apply (Int32.add_left_inj (Int32.ofNat call.stage.counts.toNat)).mp
    rw [conns_balance moves, before, ← Int32.ofNat_add, ← Int32.ofNat_add, balance]
  · have elsewhere : (call.backend.index == j) = false := beq_eq_false_iff_ne.mpr (Ne.symm different)
    simp only [elsewhere, Bool.and_false, Bool.toNat_false, Nat.add_zero] at balance
    rw [balance]
    exact isExact j be inOther

theorem callsAt_quiet (quiet : s.Quiet) (i : Nat) : s.callsAt i = 0 := by
  apply List.countP_eq_zero.mpr
  intro call member
  rw [quiet call member]
  exact Bool.false_ne_true

theorem exact_refill (quiet : s.Quiet) (addrs : List String) : (s.refill grow addrs).Exact := by
  intro i be inList
  have uncounted : (s.refill grow addrs).callsAt i = 0 := callsAt_quiet quiet i
  rw [backends_refill, List.getElem?_map] at inList
  obtain ⟨addr, _, rfl⟩ := Option.map_eq_some_iff.mp inList
  rw [uncounted]
  rfl

theorem exact_probe (isExact : s.Exact) (i : Nat) (answered : Bool) (be : Backend) :
    (s.probe i answered be).Exact := by
  intro j other inList
  rw [backends_probe] at inList
  rcases getElem?_modify_cases inList with ⟨rfl, old, inOld, rfl⟩ | ⟨_, inOther⟩
  · exact isExact j old inOld
  · exact isExact j other inOther

theorem exact_step {action : Action} (held : s.Anchored ∧ s.Exact)
    (undisturbed : s.Undisturbed action) (stepped : step strategy grow s action = some t) :
    t.Anchored ∧ t.Exact := by
  obtain ⟨anchored, isExact⟩ := held
  have orderly : Orderly s action := by
    apply orderly_of_refresh
    rintro addrs rfl
    exact ⟨undisturbed.1, Or.inl undisturbed.2⟩
  refine ⟨anchored_step anchored orderly stepped, ?_⟩
  cases action with
  | pick clock =>
      rcases step_pick stepped with rfl | ⟨i, be, inList, rfl⟩
      · exact isExact
      · intro j other inOther
        unfold callsAt
        rw [List.countP_append]
        exact isExact j other inOther
  | handle i act =>
      obtain ⟨call, p, current, progresses, rfl⟩ := step_handle stepped
      exact exact_advance isExact anchored current (moves_of_progress progresses)
  | refresh addrs =>
      rw [← Option.some.inj stepped]
      exact exact_refill undisturbed.2 addrs
  | probe i answered =>
      obtain ⟨be, _, rfl⟩ := step_probe stepped
      exact exact_probe isExact i answered be

end Serving

/-- In every run whose refreshes do not disturb a connection, each backend counts
exactly the calls with a connection to its address; below the limit of its type the
count is that number, and so not negative. -/
theorem conns_exact {strategy : Strategy} {grow : Nat → Nat} {labels : List Action} {s : Serving}
    (undisturbed : Guarded (step strategy grow) Serving.Undisturbed Serving.start labels)
    (reached : execute (step strategy grow) Serving.start labels = some s) :
    ∀ be ∈ s.backends,
      be.conns = Int32.ofNat (s.forwarding be.addr) ∧
        (s.forwarding be.addr < 2 ^ 31 → be.conns.toInt = s.forwarding be.addr) := by
  have held : s.Anchored ∧ s.Exact :=
    invariant_of_guarded (step strategy grow) (fun s => s.Anchored ∧ s.Exact)
      (fun _ _ _ before guard stepped => Serving.exact_step before guard stepped)
      ⟨Serving.anchored_start, nofun⟩ undisturbed reached
  obtain ⟨anchored, isExact⟩ := held
  intro be member
  obtain ⟨i, inList⟩ := List.mem_iff_getElem?.mp member
  have counted : be.conns = Int32.ofNat (s.forwarding be.addr) := by
    rw [Serving.forwarding_eq_callsAt anchored inList]
    exact isExact i be inList
  refine ⟨counted, ?_⟩
  intro below
  rw [counted]
  exact Int32.toInt_ofNat_of_lt below

/-- Two connections, the first of them refused and the second open. -/
theorem conns_exact_sample :
    ∃ s, execute (step .leastConnections id) Serving.start
        [.refresh ["n1:80", "n2:80"], .pick 0, .handle 0 .increment, .pick 0,
          .handle 1 .increment, .handle 0 .dial, .handle 1 .dial, .handle 0 .refuse,
          .handle 1 .connect, .handle 0 .decrement, .probe 0 true] = some s ∧
      s.backends.map Backend.conns = [0, 1] ∧
      ∀ be ∈ s.backends,
        be.conns = Int32.ofNat (s.forwarding be.addr) ∧
          (s.forwarding be.addr < 2 ^ 31 → be.conns.toInt = s.forwarding be.addr) := by
  refine exists_of_tested (step .leastConnections id)
    (fun s => s.backends.map Backend.conns = [0, 1]) (by decide +kernel) ?_
  intro s reached counts
  exact ⟨counts,
    conns_exact (guarded_of_check (step .leastConnections id) (by decide +kernel)) reached⟩

/-- A refresh with the same address in the middle of a connection: the open connection
is no longer counted, and when it ends the count is `-1`. -/
theorem refresh_loses_count :
    (∃ s, execute (step .roundRobin id) Serving.start
        [.refresh ["n1:80"], .pick 0, .handle 0 .increment, .handle 0 .dial, .handle 0 .connect,
          .refresh ["n1:80"]] = some s ∧
      s.backends.map Backend.conns = [0] ∧ s.forwarding "n1:80" = 1) ∧
    ∃ s, execute (step .roundRobin id) Serving.start
        [.refresh ["n1:80"], .pick 0, .handle 0 .increment, .handle 0 .dial, .handle 0 .connect,
          .refresh ["n1:80"], .handle 0 .decrement] = some s ∧
      s.backends.map Backend.conns = [-1] ∧ s.forwarding "n1:80" = 0 := by
  constructor
  · exact exists_of_execute_test (step .roundRobin id) Serving.start _
      (fun s => s.backends.map Backend.conns = [0] ∧ s.forwarding "n1:80" = 1) (by decide +kernel)
  · exact exists_of_execute_test (step .roundRobin id) Serving.start _
      (fun s => s.backends.map Backend.conns = [-1] ∧ s.forwarding "n1:80" = 0) (by decide +kernel)

end MiniCloud.LoadBalancer
