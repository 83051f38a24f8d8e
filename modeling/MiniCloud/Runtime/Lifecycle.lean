import MiniCloud.Library.Runs
import MiniCloud.Runtime.Fake

/-!
# The life of a container

Each `Start` leaves two goroutines behind that know the container by reference.  One closes
its channel `done`, waits until `stop` is closed, and then marks the container as exited.
The other adds to the statistics until `stop` is closed.  Their steps come between the
calls in any order.
-/

namespace MiniCloud.Runtime

open MiniCloud.Library

/-! ## Calls and goroutines -/

/-- A goroutine of `Start`, by what it does next. -/
inductive Task where
  | closing (ref : Nat)
  | waiting (ref : Nat)
  | exiting (ref : Nat)
  | ticking (id : String) (ref : Nat)
  | ended
  deriving DecidableEq, Repr

/-- The container that a goroutine of the first kind still has to mark as exited. -/
def Task.ref : Task → Option Nat
  | .closing i | .waiting i | .exiting i => some i
  | .ticking .. | .ended => none

structure World where
  fake : Fake
  images : AList fun _ : String => Bool
  tasks : List Task
  panicked : Bool

def World.new : World := ⟨Fake.new, ∅, [], false⟩

inductive Call where
  | create (s : Spec)
  | start (id : String)
  | stop (id : String)
  | remove (id : String) (force : Bool)

/-- What a goroutine may do in one step. -/
inductive Move where
  | close
  | receive
  | exit
  | tick
  | leave

inductive Action where
  | call (call : Call)
  | go (k : Nat) (move : Move)

namespace World

/-- The state after a call. -/
def call (w : World) : Call → World
  | .create s =>
      { w with
        fake := (w.fake.create s).2
        images :=
          if (w.images.lookup s.image).getD false then w.images else w.images.insert s.image true }
  | .start id =>
      match w.fake.start id with
      | (.error _, fake) => { w with fake := fake }
      | (.ok i, fake) =>
          { w with fake := fake, tasks := w.tasks ++ [.closing i, .ticking id i] }
  | .stop id => { w with fake := (w.fake.stop id).2 }
  | .remove id force => { w with fake := (w.fake.remove id force).2 }

/-- A step of the goroutine with number `k`, if it is where it can take it. -/
def go (w : World) (k : Nat) (move : Move) : Option World :=
  match move, w.tasks[k]? with
  | .close, some (.closing i) =>
      (w.fake.heap[i]?).map fun c =>
        -- closing a closed channel panics
        if c.done then { w with panicked := true }
        else
          { w with
            fake := w.fake.modify i Fake.closeDone fun _ => rfl
            tasks := w.tasks.set k (.waiting i) }
  | .receive, some (.waiting i) =>
      (w.fake.heap[i]?).bind fun c =>
        if c.stop then some { w with tasks := w.tasks.set k (.exiting i) } else none
  | .exit, some (.exiting i) =>
      some
        { w with
          fake := w.fake.modify i Fake.exit fun _ => rfl
          tasks := w.tasks.set k .ended }
  | .tick, some (.ticking id _) => some { w with fake := w.fake.tick id }
  | .leave, some (.ticking _ i) =>
      (w.fake.heap[i]?).bind fun c =>
        if c.stop then some { w with tasks := w.tasks.set k .ended } else none
  | _, _ => none

/-- One action; after a panic there is none. -/
def step (w : World) (act : Action) : Option World :=
  if w.panicked then none
  else
    match act with
    | .call call => some (w.call call)
    | .go k move => w.go k move

end World

/-! ## What a step does -/

/-- The actions that are possible, with the state after each. -/
inductive Transition (w : World) : Action → World → Prop where
  | created (s : Spec) : Transition w (.call (.create s)) (w.call (.create s))
  | startRefused {id : String} (missing : w.fake.conts.lookup id = none) :
      Transition w (.call (.start id)) w
  | started {id : String} {i : Nat} (found : w.fake.conts.lookup id = some i) :
      Transition w (.call (.start id))
        { w with
          fake := w.fake.modify i (Fake.launch (w.fake.conts.entries.length * 100 + 1)) fun _ => rfl
          tasks := w.tasks ++ [.closing i, .ticking id i] }
  | stopRefused {id : String} (missing : w.fake.conts.lookup id = none) :
      Transition w (.call (.stop id)) w
  | stopped {id : String} {i : Nat} (found : w.fake.conts.lookup id = some i) :
      Transition w (.call (.stop id))
        { w with fake := w.fake.modify i Fake.closeStop fun c => by rw [Fake.cont_closeStop] }
  | removeRefused {id : String} {force : Bool}
      (refused : ∀ c, w.fake.find id = some c → c.cont.status = .running ∧ force = false) :
      Transition w (.call (.remove id force)) w
  | removed {id : String} {force : Bool} {c : FakeContainer} (found : w.fake.find id = some c)
      (allowed : c.cont.status = .running → force = true) :
      Transition w (.call (.remove id force)) { w with fake := w.fake.delete id }
  | closed {k i : Nat} {c : FakeContainer} (task : w.tasks[k]? = some (.closing i))
      (onHeap : w.fake.heap[i]? = some c) (unclosed : c.done = false) :
      Transition w (.go k .close)
        { w with
          fake := w.fake.modify i Fake.closeDone fun _ => rfl
          tasks := w.tasks.set k (.waiting i) }
  | crashed {k i : Nat} {c : FakeContainer} (task : w.tasks[k]? = some (.closing i))
      (onHeap : w.fake.heap[i]? = some c) (closed : c.done = true) :
      Transition w (.go k .close) { w with panicked := true }
  | received {k i : Nat} (task : w.tasks[k]? = some (.waiting i)) :
      Transition w (.go k .receive) { w with tasks := w.tasks.set k (.exiting i) }
  | exited {k i : Nat} (task : w.tasks[k]? = some (.exiting i)) :
      Transition w (.go k .exit)
        { w with
          fake := w.fake.modify i Fake.exit fun _ => rfl
          tasks := w.tasks.set k .ended }
  | ticked {k i : Nat} {id : String} (task : w.tasks[k]? = some (.ticking id i)) :
      Transition w (.go k .tick) { w with fake := w.fake.tick id }
  | left {k i : Nat} {id : String} (task : w.tasks[k]? = some (.ticking id i)) :
      Transition w (.go k .leave) { w with tasks := w.tasks.set k .ended }

theorem transition_of_call (w : World) (call : Call) : Transition w (.call call) (w.call call) := by
  cases call with
  | create s => exact .created s
  | start id =>
      simp only [World.call, Fake.start]
      cases found : w.fake.conts.lookup id with
      | none => exact .startRefused found
      | some i => exact .started found
  | stop id =>
      simp only [World.call, Fake.stop]
      cases found : w.fake.conts.lookup id with
      | none => exact .stopRefused found
      | some i => exact .stopped found
  | remove id force =>
      simp only [World.call, Fake.remove]
      cases found : w.fake.find id with
      | none => exact .removeRefused fun c isFound => by rw [found] at isFound; cases isFound
      | some c =>
          by_cases refused : (c.cont.status = .running && !force) = true
          · simp only [refused, if_true]
            refine .removeRefused fun c' isFound => ?_
            cases found.symm.trans isFound
            simpa using refused
          · simp only [refused, Bool.false_eq_true, if_false]
            refine .removed found fun isRunning => ?_
            simpa [isRunning] using refused

theorem transition_of_go {w next : World} {k : Nat} {move : Move}
    (moved : w.go k move = some next) : Transition w (.go k move) next := by
  unfold World.go at moved
  split at moved
  · rename_i i task
    obtain ⟨c, onHeap, isNext⟩ := Option.map_eq_some_iff.mp moved
    split at isNext
    · rename_i isClosed
      subst isNext
      exact .crashed task onHeap isClosed
    · rename_i unclosed
      subst isNext
      exact .closed task onHeap (Bool.eq_false_iff.mpr unclosed)
  · rename_i i task
    obtain ⟨c, _, received⟩ := Option.bind_eq_some_iff.mp moved
    split at received
    · cases received
      exact .received task
    · cases received
  · rename_i i task
    cases moved
    exact .exited task
  · rename_i id i task
    cases moved
    exact .ticked task
  · rename_i id i task
    obtain ⟨c, _, left⟩ := Option.bind_eq_some_iff.mp moved
    split at left
    · cases left
      exact .left task
    · cases left
  · cases moved

/-- Every step is one of the transitions, and none comes after a panic. -/
theorem transition_of_step {w next : World} {act : Action} (stepped : w.step act = some next) :
    w.panicked = false ∧ Transition w act next := by
  unfold World.step at stepped
  split at stepped
  · cases stepped
  · rename_i alive
    refine ⟨Bool.eq_false_iff.mpr alive, ?_⟩
    cases act with
    | call call =>
        cases stepped
        exact transition_of_call w call
    | go k move => exact transition_of_go stepped

/-! ## Forward moves -/

/-- The moves of a status that are meant to happen. -/
inductive Moves : Status → Status → Prop where
  | stays (status : Status) : Moves status status
  | starts : Moves .creating .running
  | exits : Moves .running .exited

/-- Every container that is there moves on, and a new one is being created. -/
structure Forward (heap heap' : List FakeContainer) : Prop where
  moves : ∀ {i : Nat} {c : FakeContainer}, heap[i]? = some c →
    ∃ c', heap'[i]? = some c' ∧ Moves c.cont.status c'.cont.status
  begins : ∀ {i : Nat} {c' : FakeContainer}, heap[i]? = none → heap'[i]? = some c' →
    c'.cont.status = .creating

/-- No action that is possible panics, and all containers move forward in it. -/
def Lawful (w : World) (act : Action) : Prop :=
  ∀ next, w.step act = some next →
    next.panicked = false ∧ Forward w.fake.heap next.fake.heap

section Heap

variable {heap : List FakeContainer}

theorem Forward.refl (heap : List FakeContainer) : Forward heap heap where
  moves := fun {i c} onHeap => ⟨c, onHeap, .stays _⟩
  begins := fun {i c'} missing onHeap => by
    rw [missing] at onHeap
    cases onHeap

theorem forward_concat (heap : List FakeContainer) {c : FakeContainer}
    (creating : c.cont.status = .creating) : Forward heap (heap ++ [c]) where
  moves := fun {i old} onHeap => ⟨old, getElem?_concat_old onHeap, .stays _⟩
  begins := fun {i c'} missing onHeap => by
    rcases getElem?_concat_cases onHeap with ⟨_, rfl⟩ | ⟨_, earlier⟩
    · exact creating
    · rw [missing] at earlier
      cases earlier

theorem forward_modify {i : Nat} {change : FakeContainer → FakeContainer}
    (moves : ∀ c, heap[i]? = some c → Moves c.cont.status (change c).cont.status) :
    Forward heap (heap.modify i change) where
  moves := fun {j c} onHeap => by
    by_cases same : i = j
    · subst same
      exact ⟨change c, getElem?_modify_self onHeap change, moves c onHeap⟩
    · exact ⟨c, getElem?_modify_other same onHeap change, .stays _⟩
  begins := fun {j c'} missing onHeap => by
    have outside := List.getElem?_eq_none_iff.mp missing
    have inside := (List.getElem?_eq_some_iff.mp onHeap).1
    rw [List.length_modify] at inside
    omega

end Heap

/-! ## One start for each container -/

/-- Not both goroutines have to mark the same container. -/
def Apart (task task' : Task) : Prop := ∀ i, task.ref = some i → task'.ref ≠ some i

/-- A goroutine that has to mark a container finds it running, finds `done` open if it has
to close that, and is the only one; a container that is being created has `done` open. -/
structure Orderly (heap : List FakeContainer) (tasks : List Task) : Prop where
  runs : ∀ task ∈ tasks, ∀ i, task.ref = some i →
    ∃ c, heap[i]? = some c ∧ c.cont.status = .running ∧ (task = .closing i → c.done = false)
  single : EachPair Apart tasks
  fresh : ∀ {i : Nat} {c : FakeContainer}, heap[i]? = some c → c.cont.status = .creating →
    c.done = false

namespace Orderly

variable {heap : List FakeContainer} {tasks : List Task}

theorem empty : Orderly [] [] where
  runs := fun _ member => absurd member List.not_mem_nil
  single := EachPair.nil
  fresh := fun found _ => by cases found

/-- A container that is being created has no goroutine. -/
theorem unreferenced (orderly : Orderly heap tasks) {i : Nat} {c : FakeContainer}
    (onHeap : heap[i]? = some c) (creating : c.cont.status = .creating) :
    ∀ task ∈ tasks, task.ref ≠ some i := by
  intro task member isRef
  obtain ⟨c', onHeap', running, _⟩ := orderly.runs task member i isRef
  cases onHeap.symm.trans onHeap'
  rw [creating] at running
  cases running

theorem concat (orderly : Orderly heap tasks) {c : FakeContainer} (unclosed : c.done = false) :
    Orderly (heap ++ [c]) tasks where
  runs := fun task member i isRef => by
    obtain ⟨old, onHeap, running, isOpen⟩ := orderly.runs task member i isRef
    exact ⟨old, getElem?_concat_old onHeap, running, isOpen⟩
  single := orderly.single
  fresh := fun onHeap creating => by
    rcases getElem?_concat_cases onHeap with ⟨_, rfl⟩ | ⟨_, earlier⟩
    · exact unclosed
    · exact orderly.fresh earlier creating

/-- A container may change if its goroutine still finds it as it has to be. -/
theorem modify (orderly : Orderly heap tasks) {i : Nat} {change : FakeContainer → FakeContainer}
    (runs : ∀ c, heap[i]? = some c → ∀ task ∈ tasks, task.ref = some i →
      (change c).cont.status = .running ∧ (task = .closing i → (change c).done = false))
    (fresh : ∀ c, heap[i]? = some c → (change c).cont.status = .creating →
      (change c).done = false) : Orderly (heap.modify i change) tasks where
  runs := fun task member j isRef => by
    obtain ⟨c, onHeap, running, isOpen⟩ := orderly.runs task member j isRef
    by_cases same : i = j
    · subst same
      exact ⟨change c, getElem?_modify_self onHeap change, runs c onHeap task member isRef⟩
    · exact ⟨c, getElem?_modify_other same onHeap change, running, isOpen⟩
  single := orderly.single
  fresh := fun onHeap creating => by
    rcases getElem?_modify_cases onHeap with ⟨_, old, onHeapOld, rfl⟩ | ⟨_, earlier⟩
    · exact fresh old onHeapOld creating
    · exact orderly.fresh earlier creating

/-- A goroutine may go on to a step that is not the closing of `done`. -/
theorem set (orderly : Orderly heap tasks) {k : Nat} {task task' : Task}
    (found : tasks[k]? = some task) (sameRef : ∀ i, task'.ref = some i → task.ref = some i)
    (notClosing : ∀ i, task' ≠ .closing i) : Orderly heap (tasks.set k task') where
  runs := by
    refine each_set orderly.runs fun i isRef => ?_
    obtain ⟨c, onHeap, running, _⟩ :=
      orderly.runs task (List.mem_of_getElem? found) i (sameRef i isRef)
    exact ⟨c, onHeap, running, fun closing => absurd closing (notClosing i)⟩
  single := by
    refine orderly.single.set found fun other _ apart apart' => ⟨?_, ?_⟩
    · exact fun i isRef => apart i (sameRef i isRef)
    · exact fun i isRef isRef' => apart' i isRef (sameRef i isRef')
  fresh := orderly.fresh

/-- After a step of the goroutine for a container, no other one is for the container. -/
theorem eq_of_mem_set (orderly : Orderly heap tasks) {k i : Nat} {task task' other : Task}
    (found : tasks[k]? = some task) (isRef : task.ref = some i) (member : other ∈ tasks.set k task')
    (otherRef : other.ref = some i) : other = task' := by
  obtain ⟨j, inSlot⟩ := List.mem_iff_getElem?.mp member
  rcases getElem?_set_cases inSlot with ⟨_, isNew⟩ | ⟨different, earlier⟩
  · exact isNew
  · exact absurd otherRef (orderly.single k j _ _ different.symm found earlier i isRef)

/-- Two goroutines are added for a container that has none. -/
theorem spawn (orderly : Orderly heap tasks) {i : Nat} {c : FakeContainer} (id : String)
    (onHeap : heap[i]? = some c) (running : c.cont.status = .running) (unclosed : c.done = false)
    (none : ∀ task ∈ tasks, task.ref ≠ some i) :
    Orderly heap (tasks ++ [.closing i, .ticking id i]) := by
  have first : Orderly heap (tasks ++ [.closing i]) := by
    refine ⟨each_concat orderly.runs ?_, orderly.single.concat ?_, orderly.fresh⟩
    · rintro j ⟨⟩
      exact ⟨c, onHeap, running, fun _ => unclosed⟩
    · refine fun other member => ⟨?_, ?_⟩
      · rintro j ⟨⟩
        exact none other member
      · rintro j isRef ⟨⟩
        exact none other member isRef
  have both : tasks ++ [.closing i, .ticking id i] = tasks ++ [.closing i] ++ [.ticking id i] := by
    rw [List.append_assoc, List.singleton_append]
  rw [both]
  refine ⟨each_concat first.runs ?_, first.single.concat ?_, first.fresh⟩
  · rintro j ⟨⟩
  · refine fun other _ => ⟨?_, ?_⟩
    · rintro j ⟨⟩
    · rintro j _ ⟨⟩

end Orderly

/-- A call of `Start` finds no container, or one that is being created. -/
def StartsFresh (w : World) : Action → Prop
  | .call (.start id) => ∀ c, w.fake.find id = some c → c.cont.status = .creating
  | _ => True

namespace Orderly

variable {w : World} {k i : Nat}

theorem launched (orderly : Orderly w.fake.heap w.tasks) {id : String} {c : FakeContainer}
    (onHeap : w.fake.heap[i]? = some c) (creating : c.cont.status = .creating) (pid : Int) :
    Orderly (w.fake.heap.modify i (Fake.launch pid)) (w.tasks ++ [.closing i, .ticking id i]) := by
  have none := orderly.unreferenced onHeap creating
  have changed : Orderly (w.fake.heap.modify i (Fake.launch pid)) w.tasks := by
    refine orderly.modify (fun c' _ task member isRef => absurd isRef (none task member)) ?_
    intro c' _ stillCreating
    cases stillCreating
  have now := getElem?_modify_self onHeap (Fake.launch pid)
  have unclosed := orderly.fresh onHeap creating
  exact changed.spawn id now rfl unclosed none

theorem closed (orderly : Orderly w.fake.heap w.tasks) (task : w.tasks[k]? = some (.closing i)) :
    Orderly (w.fake.heap.modify i Fake.closeDone) (w.tasks.set k (.waiting i)) := by
  have waits : Orderly w.fake.heap (w.tasks.set k (.waiting i)) :=
    orderly.set task (fun _ isRef => isRef) fun _ => Task.noConfusion
  obtain ⟨c, onHeap, running, _⟩ := orderly.runs _ (List.mem_of_getElem? task) i rfl
  refine waits.modify ?_ ?_
  · intro c' onHeap' other member isRef
    cases onHeap.symm.trans onHeap'
    refine ⟨running, fun closing => ?_⟩
    -- the goroutine that closed the channel is the only one for the container, and waits now
    have isWaiting := orderly.eq_of_mem_set task rfl member isRef
    cases closing.symm.trans isWaiting
  · intro c' onHeap' creating
    cases onHeap.symm.trans onHeap'
    exact absurd (running.symm.trans creating) (by decide)

theorem exited (orderly : Orderly w.fake.heap w.tasks) (task : w.tasks[k]? = some (.exiting i)) :
    Orderly (w.fake.heap.modify i Fake.exit) (w.tasks.set k .ended) := by
  have ended : Orderly w.fake.heap (w.tasks.set k .ended) :=
    orderly.set task (fun _ isRef => by cases isRef) fun _ => Task.noConfusion
  refine ended.modify ?_ fun c _ creating => by cases creating
  intro c _ other member isRef
  rw [orderly.eq_of_mem_set task rfl member isRef] at isRef
  cases isRef

theorem stopped (orderly : Orderly w.fake.heap w.tasks) (i : Nat) :
    Orderly (w.fake.heap.modify i Fake.closeStop) w.tasks := by
  refine orderly.modify ?_ ?_
  · intro c onHeap task member isRef
    obtain ⟨c', onHeap', found⟩ := orderly.runs task member i isRef
    cases onHeap.symm.trans onHeap'
    rw [Fake.cont_closeStop, Fake.done_closeStop]
    exact found
  · intro c onHeap creating
    rw [Fake.cont_closeStop] at creating
    rw [Fake.done_closeStop]
    exact orderly.fresh onHeap creating

end Orderly

/-- In an orderly state a step that starts no container again does not panic, moves the
containers forward, and leaves an orderly state. -/
theorem lawful_of_transition {w next : World} {act : Action}
    (orderly : Orderly w.fake.heap w.tasks) (alive : w.panicked = false) (fresh : StartsFresh w act)
    (moved : Transition w act next) :
    (next.panicked = false ∧ Forward w.fake.heap next.fake.heap) ∧
      Orderly next.fake.heap next.tasks := by
  cases moved with
  | created s => exact ⟨⟨alive, forward_concat _ rfl⟩, orderly.concat rfl⟩
  | startRefused | stopRefused | removeRefused | removed | ticked =>
      exact ⟨⟨alive, .refl _⟩, orderly⟩
  | started found =>
      rename_i id i
      obtain ⟨c, onHeap, _⟩ := w.fake.keyed id i found
      have creating : c.cont.status = .creating :=
        fresh c (by rw [Fake.find, found, Option.bind_some, onHeap])
      refine ⟨⟨alive, forward_modify fun c' onHeap' => ?_⟩, orderly.launched onHeap creating _⟩
      cases onHeap.symm.trans onHeap'
      rw [creating]
      exact .starts
  | stopped found =>
      rename_i i
      refine ⟨⟨alive, forward_modify fun c _ => ?_⟩, orderly.stopped i⟩
      rw [Fake.cont_closeStop]
      exact .stays _
  | closed task _ _ => exact ⟨⟨alive, forward_modify fun c _ => .stays _⟩, orderly.closed task⟩
  | crashed task onHeap closed =>
      obtain ⟨c', onHeap', _, isOpen⟩ := orderly.runs _ (List.mem_of_getElem? task) _ rfl
      cases onHeap.symm.trans onHeap'
      exact absurd (closed.symm.trans (isOpen rfl)) (by decide)
  | received task =>
      exact ⟨⟨alive, .refl _⟩, orderly.set task (fun _ isRef => isRef) fun _ => Task.noConfusion⟩
  | exited task =>
      obtain ⟨c, onHeap, running, _⟩ := orderly.runs _ (List.mem_of_getElem? task) _ rfl
      refine ⟨⟨alive, forward_modify fun c' onHeap' => ?_⟩, orderly.exited task⟩
      cases onHeap.symm.trans onHeap'
      rw [running]
      exact .exits
  | left task =>
      exact ⟨⟨alive, .refl _⟩,
        orderly.set task (fun _ isRef => by cases isRef) fun _ => Task.noConfusion⟩

/-- In a run whose `Start` calls find no container that was started before, no step panics
and every container moves forward. -/
theorem lawful_of_startsFresh {acts : List Action}
    (fresh : Guarded World.step StartsFresh World.new acts) :
    Guarded World.step Lawful World.new acts := by
  refine guarded_of_invariant World.step (fun w => Orderly w.fake.heap w.tasks) ?_ ?_
    Orderly.empty fresh
  · intro w act orderly isFresh next stepped
    obtain ⟨alive, moved⟩ := transition_of_step stepped
    exact (lawful_of_transition orderly alive isFresh moved).1
  · intro w act next orderly isFresh stepped
    obtain ⟨alive, moved⟩ := transition_of_step stepped
    exact (lawful_of_transition orderly alive isFresh moved).2

/-! ## Another start -/

/-- A running container has its channel `done` closed, or a goroutine that will close it. -/
def Pending (heap : List FakeContainer) (tasks : List Task) : Prop :=
  ∀ {i : Nat} {c : FakeContainer}, heap[i]? = some c → c.cont.status = .running →
    c.done = true ∨ .closing i ∈ tasks

namespace Pending

variable {heap : List FakeContainer} {tasks : List Task}

theorem empty : Pending [] [] := fun found _ => by cases found

/-- The step of a goroutine that does not close the channel of `i` leaves those that do. -/
theorem set (pending : Pending heap tasks) {k : Nat} {task : Task} (found : tasks[k]? = some task)
    (task' : Task) {i : Nat} {c : FakeContainer} (onHeap : heap[i]? = some c)
    (running : c.cont.status = .running) (other : task ≠ .closing i) :
    c.done = true ∨ .closing i ∈ tasks.set k task' := by
  refine (pending onHeap running).imp_right fun member => ?_
  obtain ⟨j, inSlot⟩ := List.mem_iff_getElem?.mp member
  refine mem_set_other ?_ inSlot
  rintro rfl
  exact other (Option.some.inj (found.symm.trans inSlot))

end Pending

theorem pending_of_transition {w next : World} {act : Action}
    (pending : Pending w.fake.heap w.tasks) (moved : Transition w act next) :
    Pending next.fake.heap next.tasks := by
  intro j c onHeap running
  cases moved with
  | created s =>
      rcases getElem?_concat_cases onHeap with ⟨_, rfl⟩ | ⟨_, earlier⟩
      · cases running
      · exact pending earlier running
  | startRefused | stopRefused | removeRefused | removed | ticked | crashed =>
      exact pending onHeap running
  | started found =>
      rcases getElem?_modify_cases onHeap with ⟨rfl, _⟩ | ⟨_, earlier⟩
      · exact Or.inr (List.mem_append_right _ List.mem_cons_self)
      · exact (pending earlier running).imp_right fun member => List.mem_append_left _ member
  | stopped found =>
      rcases getElem?_modify_cases onHeap with ⟨rfl, old, onHeapOld, rfl⟩ | ⟨_, earlier⟩
      · rw [Fake.cont_closeStop] at running
        rw [Fake.done_closeStop]
        exact pending onHeapOld running
      · exact pending earlier running
  | closed task _ _ =>
      rcases getElem?_modify_cases onHeap with ⟨_, old, _, rfl⟩ | ⟨different, earlier⟩
      · exact Or.inl rfl
      · refine pending.set task _ earlier running ?_
        rintro ⟨⟩
        exact different rfl
  | received task => exact pending.set task _ onHeap running Task.noConfusion
  | exited task =>
      rcases getElem?_modify_cases onHeap with ⟨_, old, _, rfl⟩ | ⟨_, earlier⟩
      · cases running
      · exact pending.set task _ earlier running Task.noConfusion
  | left task => exact pending.set task _ onHeap running Task.noConfusion

theorem step_start {w : World} {id : String} {i : Nat} (alive : w.panicked = false)
    (found : w.fake.conts.lookup id = some i) :
    w.step (.call (.start id)) =
      some { w with
        fake := w.fake.modify i (Fake.launch (w.fake.conts.entries.length * 100 + 1)) fun _ => rfl
        tasks := w.tasks ++ [.closing i, .ticking id i] } := by
  simp only [World.step, alive, Bool.false_eq_true, if_false, World.call, Fake.start, found]

theorem step_close {w : World} {k i : Nat} {c : FakeContainer} (alive : w.panicked = false)
    (task : w.tasks[k]? = some (.closing i)) (onHeap : w.fake.heap[i]? = some c) :
    w.step (.go k .close) =
      some (if c.done then { w with panicked := true }
        else
          { w with
            fake := w.fake.modify i Fake.closeDone fun _ => rfl
            tasks := w.tasks.set k (.waiting i) }) := by
  simp only [World.step, alive, Bool.false_eq_true, if_false, World.go, task, onHeap,
    Option.map_some]

/-- Closing a closed channel is not lawful. -/
theorem not_lawful_close {w : World} {k i : Nat} {c : FakeContainer} (alive : w.panicked = false)
    (task : w.tasks[k]? = some (.closing i)) (onHeap : w.fake.heap[i]? = some c)
    (closed : c.done = true) : ¬ Lawful w (.go k .close) := by
  intro lawful
  have stepped := step_close alive task onHeap
  rw [if_pos closed] at stepped
  cases (lawful _ stepped).1

/-- Two goroutines that are to close one channel: the second one panics. -/
theorem not_lawful_close_twice {w : World} {k k' i : Nat} {c : FakeContainer}
    (alive : w.panicked = false) (different : k ≠ k') (task : w.tasks[k]? = some (.closing i))
    (task' : w.tasks[k']? = some (.closing i)) (onHeap : w.fake.heap[i]? = some c) :
    ¬ Guarded World.step Lawful w [.go k .close, .go k' .close] := by
  intro guarded
  by_cases closed : c.done = true
  · exact not_lawful_close alive task onHeap closed guarded.1
  · have stepped := step_close alive task onHeap
    rw [if_neg closed] at stepped
    have second := (guarded.2 _ stepped).1
    have closedNow := getElem?_modify_self onHeap Fake.closeDone
    have stillClosing : (w.tasks.set k (.waiting i))[k']? = some (.closing i) := by
      rw [List.getElem?_set_ne different]
      exact task'
    exact absurd second (not_lawful_close alive stillClosing closedNow rfl)

/-- A `Start` after which the goroutines can take no unlawful step starts no container
again. -/
theorem startsFresh_of_lawful {w : World} {act : Action} (alive : w.panicked = false)
    (pending : Pending w.fake.heap w.tasks)
    (lawful : ∀ moves : List (Nat × Move),
      Guarded World.step Lawful w (act :: moves.map fun move => .go move.1 move.2)) :
    StartsFresh w act := by
  match act with
  | .go .. | .call (.create _) | .call (.stop _) | .call (.remove ..) => trivial
  | .call (.start id) =>
      intro c isFound
      obtain ⟨i, found, onHeap⟩ := Option.bind_eq_some_iff.mp isFound
      have stepped := step_start alive found
      have now (pid : Int) := getElem?_modify_self onHeap (Fake.launch pid)
      -- a container that has exited, or is in no known status, may not be started
      obtain ⟨c', onHeap', moves⟩ := ((lawful []).1 _ stepped).2.moves onHeap
      cases (now _).symm.trans onHeap'
      cases status : c.cont.status with
      | creating => rfl
      | exited | failed | unknown =>
          rw [status] at moves
          cases moves
      | running =>
          exfalso
          have last : (w.tasks ++ [.closing i, .ticking id i])[w.tasks.length]? =
              some (.closing i) := by
            rw [List.getElem?_append_right le_rfl, Nat.sub_self]
            rfl
          rcases pending onHeap status with closed | member
          · have closes := ((lawful [(w.tasks.length, .close)]).2 _ stepped).1
            exact absurd closes (not_lawful_close alive last (now _) closed)
          · obtain ⟨k, inSlot⟩ := List.mem_iff_getElem?.mp member
            have inside := (List.getElem?_eq_some_iff.mp inSlot).1
            have first : (w.tasks ++ [.closing i, .ticking id i])[k]? = some (.closing i) := by
              rw [List.getElem?_append_left inside, inSlot]
            have closesTwice := (lawful [(k, .close), (w.tasks.length, .close)]).2 _ stepped
            exact absurd closesTwice
              (not_lawful_close_twice alive (Nat.ne_of_lt inside) first last (now _))

/-- However the goroutines go on after each action of a run, no step panics and every
container moves forward, exactly if no `Start` of the run finds a container that was started
before. -/
theorem lifecycle_iff_startsFresh (acts : List Action) :
    (∀ before after, acts = before ++ after → ∀ moves : List (Nat × Move),
      Guarded World.step Lawful World.new
        (before ++ moves.map fun move => .go move.1 move.2)) ↔
      Guarded World.step StartsFresh World.new acts := by
  constructor
  · -- along the run, with what holds of the state that is reached
    have along : ∀ (acts : List Action) (w : World), Orderly w.fake.heap w.tasks →
        Pending w.fake.heap w.tasks → w.panicked = false →
        (∀ before after, acts = before ++ after → ∀ moves : List (Nat × Move),
          Guarded World.step Lawful w (before ++ moves.map fun move => .go move.1 move.2)) →
        Guarded World.step StartsFresh w acts := by
      intro acts
      induction acts with
      | nil => exact fun _ _ _ _ _ => trivial
      | cons act rest ih =>
          intro w orderly pending alive lawful
          have fresh := startsFresh_of_lawful alive pending (lawful [act] rest rfl)
          refine ⟨fresh, fun next stepped => ?_⟩
          have moved := (transition_of_step stepped).2
          obtain ⟨⟨aliveNext, _⟩, orderlyNext⟩ := lawful_of_transition orderly alive fresh moved
          refine ih next orderlyNext (pending_of_transition pending moved) aliveNext ?_
          intro before after parts moves
          exact (lawful (act :: before) after (by rw [parts]; rfl) moves).2 next stepped
    exact along acts World.new Orderly.empty Pending.empty rfl
  · rintro fresh before after rfl moves
    refine lawful_of_startsFresh (Guarded.append World.step (Guarded.left World.step fresh) ?_)
    intro act member w
    obtain ⟨move, _, rfl⟩ := List.mem_map.mp member
    trivial

/-- A container that is started twice makes the second goroutine close `done` again, and one
that is started after it has exited runs once more. -/
theorem second_start_panics :
    (∃ w, execute World.step World.new
        [.call (.create ⟨"a", "web", "nginx"⟩), .call (.start "a"), .call (.start "a"),
          .go 0 .close, .go 2 .close] = some w ∧ w.panicked = true) ∧
      ∃ w w', execute World.step World.new
          [.call (.create ⟨"a", "web", "nginx"⟩), .call (.start "a"), .call (.stop "a"),
            .go 0 .close, .go 0 .receive, .go 0 .exit] = some w ∧
        w.step (.call (.start "a")) = some w' ∧
        (w.fake.find "a").map (fun c => c.cont.status) = some .exited ∧
        (w'.fake.find "a").map (fun c => c.cont.status) = some .running := by
  refine ⟨exists_of_execute_test World.step _ _ (fun w => w.panicked = true) (by decide +kernel), ?_⟩
  exact ⟨_, _, rfl, rfl, by decide +kernel, by decide +kernel⟩

end MiniCloud.Runtime
