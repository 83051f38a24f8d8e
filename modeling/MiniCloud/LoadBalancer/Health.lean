import MiniCloud.LoadBalancer.Serving

/-!
# Backends that are known to be dead

A dial or probe that fails marks its backend unhealthy, and `pick` skips it.  A refresh
builds all backends anew as healthy ones.  The marks are kept as long as the list is
refilled only while no address of it is known to be dead, and in another order only while
no connection is handled: a call of `handle` marks the place that it has a pointer to.
-/

namespace MiniCloud.LoadBalancer

open MiniCloud.Library

namespace Serving

/-- Each address known to be dead is that of an unhealthy backend. -/
def Marked (s : Serving) : Prop :=
  ∀ addr ∈ s.dead, ∃ (i : Nat) (be : Backend),
    s.backends[i]? = some be ∧ be.addr = addr ∧ be.healthy = false

/-- The list is filled once and refilled with the same distinct addresses, while none
of them is known to be dead; their order changes only while no connection is handled. -/
def Settled (s : Serving) : Action → Prop
  | .refresh addrs =>
      addrs.Nodup ∧ (s.addrs = [] ∨ addrs.Perm s.addrs) ∧ s.dead = [] ∧
        (addrs = s.addrs ∨ s.Quiet)
  | _ => True

instance (s : Serving) (action : Action) : Decidable (s.Settled action) :=
  match action with
  | .refresh addrs =>
      inferInstanceAs (Decidable (addrs.Nodup ∧ (s.addrs = [] ∨ addrs.Perm s.addrs) ∧ s.dead = [] ∧
        (addrs = s.addrs ∨ ∀ call ∈ s.calls, call.stage = .done)))
  | .pick _ | .handle _ _ | .probe _ _ => inferInstanceAs (Decidable True)

variable {strategy : Strategy} {grow : Nat → Nat} {s t : Serving} {call : Handle} {p : Progress}

/-- What may be known to be dead after one backend was written: its address, if it is
unhealthy now, and what was known before, unless the backend got healthy. -/
def Explains (dead : List String) (be be' : Backend) (addr : String) : Prop :=
  (addr = be.addr ∧ be'.healthy = false) ∨
    (addr ∈ dead ∧ (addr = be.addr → be.healthy = false → be'.healthy = false))

theorem marked_write (marked : s.Marked) {i : Nat} {be : Backend} {change : Backend → Backend}
    (inList : s.backends[i]? = some be) (keeps : (change be).addr = be.addr)
    (written : t.backends = s.backends.modify i change)
    (explained : ∀ addr ∈ t.dead, Explains s.dead be (change be) addr) : t.Marked := by
  have here : t.backends[i]? = some (change be) := by
    rw [written, List.getElem?_modify_eq, inList]
    rfl
  intro addr isDead
  rcases explained addr isDead with ⟨rfl, unhealthy⟩ | ⟨wasDead, stays⟩
  · exact ⟨i, change be, here, keeps, unhealthy⟩
  · obtain ⟨j, other, inOther, isAddr, unhealthy⟩ := marked addr wasDead
    by_cases same : i = j
    · subst same
      cases Option.some.inj (inList.symm.trans inOther)
      exact ⟨i, change be, here, keeps.trans isAddr, stays isAddr.symm unhealthy⟩
    · refine ⟨j, other, ?_, isAddr, unhealthy⟩
      rw [written, List.getElem?_modify_ne _ _ same]
      exact inOther

theorem explains_moves {pool : Slice Backend} (moves : call.Moves pool p) {dead : List String}
    {be : Backend} (same : ∀ dialed ∈ call.stage.addr, dialed = be.addr) :
    ∀ addr ∈ note dead p.outcome, Explains dead be (p.change be) addr := by
  intro addr isDead
  cases moves with
  | increment stage => exact Or.inr ⟨isDead, fun _ unhealthy => unhealthy⟩
  | dial stage => exact Or.inr ⟨isDead, fun _ unhealthy => unhealthy⟩
  | connect dialed stage =>
      exact Or.inr ⟨(List.mem_filter.mp isDead).1, fun _ unhealthy => unhealthy⟩
  | refuse dialed stage =>
      have isAddr : dialed = be.addr := same dialed (congrArg Stage.addr stage)
      rcases List.mem_cons.mp isDead with rfl | wasDead
      · exact Or.inl ⟨isAddr, rfl⟩
      · exact Or.inr ⟨wasDead, fun _ _ => rfl⟩
  | decrement dialed stage => exact Or.inr ⟨isDead, fun _ unhealthy => unhealthy⟩

theorem explains_probe {dead : List String} {be : Backend} {answered : Bool} :
    ∀ addr ∈ note dead (some (be.addr, answered)),
      Explains dead be { be with healthy := answered } addr := by
  intro addr isDead
  cases answered with
  | false =>
      rcases List.mem_cons.mp isDead with isAddr | wasDead
      · exact Or.inl ⟨isAddr, rfl⟩
      · exact Or.inr ⟨wasDead, fun _ _ => rfl⟩
  | true =>
      obtain ⟨wasDead, different⟩ := List.mem_filter.mp isDead
      exact Or.inr ⟨wasDead, fun isAddr => absurd isAddr (of_decide_eq_true different)⟩

theorem marked_step {action : Action} (held : s.Anchored ∧ s.Marked) (settled : s.Settled action)
    (stepped : step strategy grow s action = some t) : t.Anchored ∧ t.Marked := by
  obtain ⟨anchored, marked⟩ := held
  have orderly : Orderly s action := by
    apply orderly_of_refresh
    rintro addrs rfl
    obtain ⟨distinct, _, _, kept⟩ := settled
    exact ⟨distinct, kept.symm⟩
  refine ⟨anchored_step anchored orderly stepped, ?_⟩
  cases action with
  | pick clock =>
      rcases step_pick stepped with rfl | ⟨i, be, inList, rfl⟩
      · exact marked
      · exact marked
  | handle i act =>
      obtain ⟨call, p, current, progresses, rfl⟩ := step_handle stepped
      have moves : call.Moves s.pool p := moves_of_progress progresses
      obtain ⟨be, _, inList, same⟩ := anchored.slot (List.mem_of_getElem? current) moves.active
      exact marked_write marked inList (moves.keeps_addr be)
        (backends_advance anchored current moves) (explains_moves moves same)
  | refresh addrs =>
      rw [← Option.some.inj stepped]
      intro addr isDead
      have noneDead : s.dead = [] := settled.2.2.1
      exact absurd isDead (by rw [refill, noneDead]; exact List.not_mem_nil)
  | probe i answered =>
      obtain ⟨be, inList, rfl⟩ := step_probe stepped
      refine marked_write marked inList ?_ (backends_probe s i answered be) explains_probe
      rfl

/-- A healthy backend is not known to be dead. -/
theorem Marked.healthy_alive (marked : s.Marked) (anchored : s.Anchored) {i : Nat} {be : Backend}
    (inList : s.backends[i]? = some be) (isHealthy : be.healthy = true) : be.addr ∉ s.dead := by
  intro isDead
  obtain ⟨j, other, inOther, sameAddr, unhealthy⟩ := marked be.addr isDead
  have samePlace : j = i := anchored.place_unique inOther inList sameAddr
  rw [samePlace] at inOther
  rw [Option.some.inj (inOther.symm.trans inList), isHealthy] at unhealthy
  cases unhealthy

/-- A refresh that keeps the set of addresses leaves every unhealthy backend unhealthy. -/
def KeepsMarks (grow : Nat → Nat) (s : Serving) : Prop :=
  ∀ addrs, addrs.Perm s.addrs → ∀ be ∈ s.backends, be.healthy = false →
    ∀ be' ∈ (s.refill grow addrs).backends, be'.addr = be.addr → be'.healthy = false

theorem keepsMarks_iff (grow : Nat → Nat) (s : Serving) :
    s.KeepsMarks grow ↔ ∀ be ∈ s.backends, be.healthy = true := by
  constructor
  · intro keeps be member
    have renewed : (⟨be.addr, 0, true⟩ : Backend) ∈ (s.refill grow s.addrs).backends := by
      rw [backends_refill]
      exact List.mem_map_of_mem (List.mem_map_of_mem member)
    by_contra unhealthy
    cases keeps s.addrs (List.Perm.refl _) be member (eq_false_of_ne_true unhealthy) _ renewed rfl
  · intro allHealthy addrs _ be member unhealthy
    rw [allHealthy be member] at unhealthy
    cases unhealthy

end Serving

/-- In every run that refills the list only while no address of it is known to be dead, and
reorders it only while no connection is handled, `pick` returns no backend whose last dial
or probe failed.  A refresh that keeps the set of addresses turns no unhealthy backend
healthy exactly when there is none. -/
theorem pick_avoids_dead {strategy : Strategy} {grow : Nat → Nat} {labels : List Action}
    {s : Serving} (settled : Guarded (step strategy grow) Serving.Settled Serving.start labels)
    (reached : execute (step strategy grow) Serving.start labels = some s) :
    (∀ (clock : Int) (i : Nat), pick strategy clock s.backends = .ok i →
      ∃ be, s.backends[i]? = some be ∧ be.addr ∉ s.dead) ∧
    (s.KeepsMarks grow ↔ ∀ be ∈ s.backends, be.healthy = true) := by
  have held : s.Anchored ∧ s.Marked :=
    invariant_of_guarded (step strategy grow) (fun s => s.Anchored ∧ s.Marked)
      (fun _ _ _ before guard stepped => Serving.marked_step before guard stepped)
      ⟨Serving.anchored_start, nofun⟩ settled reached
  obtain ⟨anchored, marked⟩ := held
  constructor
  · intro clock i picked
    obtain ⟨be, inList, isHealthy⟩ := pick_healthy picked
    exact ⟨be, inList, marked.healthy_alive anchored inList isHealthy⟩
  · exact Serving.keepsMarks_iff grow s

/-- The list is reordered; then a connection is refused, and the next one is to the other
backend. -/
theorem pick_avoids_dead_sample :
    ∃ s, execute (step .roundRobin id) Serving.start
        [.refresh ["n1:80", "n2:80"], .refresh ["n2:80", "n1:80"], .pick 0, .handle 0 .increment,
          .handle 0 .dial, .handle 0 .refuse, .probe 1 true] = some s ∧
      (s.dead = ["n2:80"] ∧ pick .roundRobin 0 s.backends = .ok 1) ∧
      (∀ (clock : Int) (i : Nat), pick .roundRobin clock s.backends = .ok i →
        ∃ be, s.backends[i]? = some be ∧ be.addr ∉ s.dead) ∧
      (s.KeepsMarks id ↔ ∀ be ∈ s.backends, be.healthy = true) := by
  refine exists_of_tested (step .roundRobin id)
    (fun s => s.dead = ["n2:80"] ∧ pick .roundRobin 0 s.backends = .ok 1) (by decide +kernel) ?_
  intro s reached skipped
  exact ⟨skipped,
    pick_avoids_dead (guarded_of_check (step .roundRobin id) (by decide +kernel)) reached⟩

/-- The probe of the only backend fails, and the next refresh brings it back. -/
theorem refresh_revives_dead :
    (∃ s, execute (step .roundRobin id) Serving.start [.refresh ["n1:80"], .probe 0 false] = some s ∧
      s.backends = [⟨"n1:80", 0, false⟩] ∧ s.dead = ["n1:80"]) ∧
    ∃ s, execute (step .roundRobin id) Serving.start
        [.refresh ["n1:80"], .probe 0 false, .refresh ["n1:80"]] = some s ∧
      s.backends = [⟨"n1:80", 0, true⟩] ∧ s.dead = ["n1:80"] ∧
      pick .roundRobin 0 s.backends = .ok 0 := by
  constructor
  · exact exists_of_execute_test (step .roundRobin id) Serving.start _
      (fun s => s.backends = [⟨"n1:80", 0, false⟩] ∧ s.dead = ["n1:80"]) (by decide +kernel)
  · exact exists_of_execute_test (step .roundRobin id) Serving.start _
      (fun s => s.backends = [⟨"n1:80", 0, true⟩] ∧ s.dead = ["n1:80"] ∧
        pick .roundRobin 0 s.backends = .ok 0) (by decide +kernel)

end MiniCloud.LoadBalancer
