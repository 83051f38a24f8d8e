import Mathlib.Data.List.Infix
import MiniCloud.Db.Acknowledged
import MiniCloud.Db.ApplyOrder

/-!
# `Snapshot` among concurrent writes

`Snapshot` lists the entries under a key range and reads the revision of the
store in a second critical section.  Calls of `Snapshot` run here next to the
calls of `MiniCloud.Db.Concurrent`.  What a call returns is the state of the
store at one moment when nothing under its key range was stored in between.
-/

namespace MiniCloud.Db

open MiniCloud.Library

/-- The result of `KV.Snapshot`. -/
structure KvSnapshot where
  revision : Nat
  entries : List Entry
  deriving DecidableEq, Repr

/-- How far a call of `Snapshot` has got. -/
inductive Viewing where
  | listed (pfx : String) (entries : List Entry)
  | returned (pfx : String) (snapshot : KvSnapshot)
  deriving DecidableEq, Repr

/-- The world of writing calls, and the calls of `Snapshot`. -/
structure Viewers where
  world : World
  views : List Viewing

inductive ViewAct where
  | world (act : Act)
  /-- A new call of `Snapshot` lists the entries. -/
  | list (pfx : String)
  /-- A call of `Snapshot` reads the revision and returns. -/
  | revision (k : Nat)
  deriving DecidableEq, Repr

/-- Outside of the key range an applied entry leaves the listing as it is. -/
theorem Store.list_apply_outside (s : Store) {e : LogEntry} {pfx : String}
    (outside : hasPrefix e.key pfx = false) :
    (s.apply e).entries.list pfx = s.entries.list pfx := by
  refine EntryMap.eq_of_sorted (EntryMap.list_sorted _ pfx) (EntryMap.list_sorted _ pfx) ?_
  intro found
  rw [EntryMap.mem_list_iff, EntryMap.mem_list_iff]
  refine and_congr_right ?_
  intro inRange
  have other : found.key ≠ e.key := by
    intro same
    rw [← same, inRange] at outside
    cases outside
  have unchanged : (s.apply e).entries.lookup found.key = s.entries.lookup found.key :=
    s.get_apply_ne other
  rw [unchanged]

namespace Viewers

def boot (n : Node) : Viewers := ⟨.boot n, []⟩

def store (v : Viewers) : Store := v.world.node.raft.st

def step (v : Viewers) : ViewAct → Option Viewers
  | .world act => (v.world.step act).map fun world => { v with world := world }
  | .list pfx => some { v with views := v.views ++ [.listed pfx (v.store.entries.list pfx)] }
  | .revision k =>
      match v.views[k]? with
      | some (.listed pfx entries) =>
          some { v with views := v.views.set k (.returned pfx ⟨v.store.version, entries⟩) }
      | _ => none

/-- While the call waits between its two reads, no entry under its key range
reaches the store. -/
def Untouched (k : Nat) (v : Viewers) : ViewAct → Prop
  | .world (.proceed i _) =>
      match v.views[k]? with
      | some (.listed pfx _) =>
          ∀ e ∈ (v.world.calls[i]?).bind Call.marked, hasPrefix e.key pfx = false
      | _ => True
  | _ => True

instance (k : Nat) (v : Viewers) (act : ViewAct) : Decidable (v.Untouched k act) := by
  unfold Untouched
  split
  · split <;> infer_instance
  · infer_instance

/-- What the call has listed is still what the store holds. -/
def Holding (v : Viewers) (k : Nat) : Prop :=
  ∀ pfx entries, v.views[k]? = some (.listed pfx entries) → v.store.entries.list pfx = entries

/-- At this moment the store is what the call returned. -/
def Shows (v : Viewers) (pfx : String) (snapshot : KvSnapshot) : Prop :=
  v.store.version = snapshot.revision ∧ v.store.entries.list pfx = snapshot.entries

theorem holding_of_step {k : Nat} {v next : Viewers} {act : ViewAct} (holding : v.Holding k)
    (untouched : v.Untouched k act) (stepped : v.step act = some next) : next.Holding k := by
  cases act with
  | world act =>
      obtain ⟨world, moved, rfl⟩ := Option.map_eq_some_iff.mp stepped
      intro pfx entries slot
      have before := holding pfx entries slot
      have transition := World.transition_of_step moved
      cases transition with
      | ran current ran =>
          rename_i node
          change node.raft.st.entries.list pfx = entries
          rcases ran.store_cases with ⟨rfl, _, _, applied⟩ | ⟨_, sameStore, _⟩
          · have listed : v.views[k]? = some (.listed pfx entries) := slot
            simp only [Untouched, listed, current] at untouched
            rw [applied, Store.list_apply_outside _ (untouched _ rfl)]
            exact before
          · rw [sameStore]
            exact before
      | refused | called | copied | built | written | closed | renamed | truncated | gaveUp
        | electionTimeout => exact before
  | list pfx =>
      cases Option.some.inj stepped
      intro other entries slot
      rcases getElem?_concat_cases slot with ⟨_, isNew⟩ | ⟨_, old⟩
      · cases isNew
        rfl
      · exact holding other entries old
  | revision j =>
      simp only [step] at stepped
      split at stepped
      · rename_i pfx entries current
        cases stepped
        intro other listed slot
        rcases getElem?_set_cases slot with ⟨_, isNew⟩ | ⟨_, old⟩
        · cases isNew
        · exact holding other listed old
      · cases stepped

/-- A call returns at most once, and with what it holds at that moment. -/
theorem shows_of_step {k : Nat} {v next : Viewers} {act : ViewAct} {pfx : String}
    {snapshot : KvSnapshot} (holding : v.Holding k) (stepped : v.step act = some next)
    (returned : next.views[k]? = some (.returned pfx snapshot)) :
    v.views[k]? = some (.returned pfx snapshot) ∨ v.Shows pfx snapshot := by
  cases act with
  | world act =>
      obtain ⟨world, _, rfl⟩ := Option.map_eq_some_iff.mp stepped
      exact Or.inl returned
  | list other =>
      cases Option.some.inj stepped
      rcases getElem?_concat_cases returned with ⟨_, isNew⟩ | ⟨_, old⟩
      · cases isNew
      · exact Or.inl old
  | revision j =>
      simp only [step] at stepped
      split at stepped
      · rename_i current
        cases stepped
        rcases getElem?_set_cases returned with ⟨rfl, isNew⟩ | ⟨_, old⟩
        · cases isNew
          exact Or.inr ⟨rfl, holding _ _ current⟩
        · exact Or.inl old
      · cases stepped

/-- A snapshot that was returned along a run shows the store at a moment of it. -/
theorem shown_along_run {k : Nat} {v last : Viewers} {acts : List ViewAct} {pfx : String}
    {snapshot : KvSnapshot} (holding : v.Holding k)
    (untouched : Guarded step (Untouched k) v acts) (reached : execute step v acts = some last)
    (returned : last.views[k]? = some (.returned pfx snapshot)) :
    v.views[k]? = some (.returned pfx snapshot) ∨
      ∃ before moment, before.IsPrefix acts ∧ execute step v before = some moment ∧
        moment.Shows pfx snapshot := by
  induction acts generalizing v with
  | nil =>
      cases Option.some.inj reached
      exact Or.inl returned
  | cons act rest ih =>
      simp only [execute_cons, Option.bind_eq_some_iff] at reached
      obtain ⟨next, stepped, reached⟩ := reached
      have nextHolding := holding_of_step holding untouched.1 stepped
      rcases ih nextHolding (untouched.2 next stepped) reached with
        already | ⟨before, moment, isStart, moved, shows⟩
      · rcases shows_of_step holding stepped already with earlier | shows
        · exact Or.inl earlier
        · exact Or.inr ⟨[], v, List.nil_prefix, rfl, shows⟩
      · refine Or.inr ⟨act :: before, moment, List.cons_prefix_cons.mpr ⟨rfl, isStart⟩, ?_, shows⟩
        rw [execute_cons, stepped]
        exact moved

/-- In every interleaving in which no entry under the key range is stored between
the two reads of a call of `Snapshot`, the call returns the state of the store at
one moment of the run. -/
theorem snapshot_is_point_in_time {n : Node} {acts : List ViewAct} {v : Viewers} {k : Nat}
    {pfx : String} {snapshot : KvSnapshot}
    (untouched : Guarded step (Untouched k) (boot n) acts)
    (reached : execute step (boot n) acts = some v)
    (returned : v.views[k]? = some (.returned pfx snapshot)) :
    ∃ before moment, before.IsPrefix acts ∧ execute step (boot n) before = some moment ∧
      moment.Shows pfx snapshot := by
  have nothingListed : (boot n).Holding k := by
    intro other entries slot
    cases slot
  rcases shown_along_run nothingListed untouched reached returned with nothing | shown
  · cases nothing
  · exact shown

/-- A put of the given key runs to its end between the two reads of a snapshot of
the keys that start with "a". -/
def putDuringSnapshot (key : String) : List ViewAct :=
  [.world (.call (.put key [1])), .list "a"] ++
    List.replicate 9 (.world (.proceed 0 ⟨.ok, []⟩)) ++ [.revision 0]

theorem snapshot_is_point_in_time_around_put :
    ∃ v, execute step (boot testNode) (putDuringSnapshot "b") = some v ∧
      v.views = [.returned "a" ⟨1, []⟩] ∧
      ∃ before moment, before.IsPrefix (putDuringSnapshot "b") ∧
        execute step (boot testNode) before = some moment ∧ moment.Shows "a" ⟨1, []⟩ := by
  obtain ⟨v, reached, returned⟩ := exists_of_execute_test step (boot testNode)
    (putDuringSnapshot "b") (fun v => v.views = [.returned "a" ⟨1, []⟩]) (by decide)
  have untouched : Guarded step (Untouched 0) (boot testNode) (putDuringSnapshot "b") :=
    guarded_of_check step (by decide)
  refine ⟨v, reached, returned, snapshot_is_point_in_time untouched reached ?_⟩
  rw [returned]
  rfl

instance (v : Viewers) (pfx : String) (snapshot : KvSnapshot) :
    Decidable (v.Shows pfx snapshot) := inferInstanceAs (Decidable (_ ∧ _))

/-- A put under the key range lands between the two reads: the revision counts it,
the entries miss it, and the store was never so. -/
theorem snapshot_misses_counted_put :
    Node.Started testConfig testNode ∧
      ∃ v, execute step (boot testNode) (putDuringSnapshot "a") = some v ∧
        v.views = [.returned "a" ⟨1, []⟩] ∧
        ∀ before moment, before.IsPrefix (putDuringSnapshot "a") →
          execute step (boot testNode) before = some moment → ¬ moment.Shows "a" ⟨1, []⟩ := by
  refine ⟨testNode_started, ?_⟩
  obtain ⟨v, reached, returned⟩ := exists_of_execute_test step (boot testNode)
    (putDuringSnapshot "a") (fun v => v.views = [.returned "a" ⟨1, []⟩]) (by decide)
  refine ⟨v, reached, returned, ?_⟩
  intro before moment isStart moved
  have never : ∀ start ∈ (putDuringSnapshot "a").inits,
      ∀ moment ∈ execute step (boot testNode) start, ¬ moment.Shows "a" ⟨1, []⟩ := by decide
  exact never before ((List.mem_inits _ _).mpr isStart) moment moved

end Viewers

end MiniCloud.Db
