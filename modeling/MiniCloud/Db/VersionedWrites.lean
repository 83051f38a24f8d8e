import MiniCloud.Db.Acknowledged
import MiniCloud.Db.Concurrent
import MiniCloud.Library.Epochs

/-!
# Versions under concurrent writes

`Put` and `CompareAndSwap` read the version of a key in one critical section and
store the new one several sections later.  Two calls that overlap there assign the
same version.  When they do not overlap, and no entry is dropped by the guard of
`applyLocked`, the versions stored under a key increase strictly until the key is
deleted.
-/

namespace MiniCloud.Db

open MiniCloud.Library

namespace LogEntry

/-- A deletion ends the life of the entries stored under its key before. -/
def Deletes (d e : LogEntry) : Prop := d.op = .del ∧ d.key = e.key

/-- Two puts under one key. -/
def PutsSameKey (e e' : LogEntry) : Prop := e.op = .put ∧ e'.op = .put ∧ e.key = e'.key

end LogEntry

/-- The call has read a version of the key and not yet stored its entry. -/
def Call.PendingPut (key : String) : Call → Prop
  | .mismatch _ => False
  | .writing _ e stage => stage.phase = .pending ∧ e.op = .put ∧ e.key = key

instance (key : String) (c : Call) : Decidable (c.PendingPut key) := by
  cases c <;> unfold Call.PendingPut <;> infer_instance

namespace World

/-- A version is read only while no other call writes the key, and no entry is
dropped by the guard of `applyLocked`. -/
def Exclusive (w : World) : Act → Prop
  | .call (.put key _) => ∀ c ∈ w.calls, ¬ c.PendingPut key
  | .call (.compareAndSwap key _ _) => ∀ c ∈ w.calls, ¬ c.PendingPut key
  | .call (.delete _) => True
  | .proceed i _ => w.NotPassed i
  | .snap _ => True
  | .electionTimeout => True

instance (w : World) (act : Act) : Decidable (w.Exclusive act) :=
  match act with
  | .call (.put key _) | .call (.compareAndSwap key _ _) =>
      inferInstanceAs (Decidable (∀ c ∈ w.calls, ¬ c.PendingPut key))
  | .proceed i _ => inferInstanceAs (Decidable (w.NotPassed i))
  | .call (.delete _) | .snap _ | .electionTimeout => inferInstanceAs (Decidable True)

/-- Between deletions of a key its stored versions increase, and the version of a
pending write is above them. -/
structure Versioned (st : Store) (calls : List Call) (history : List LogEntry) : Prop where
  ordered : OrderedBetweenCuts LogEntry.Deletes LogEntry.PutsSameKey LogEntry.version history
  unique : EachPair (fun first second => ∀ key, first.PendingPut key → ¬ second.PendingPut key)
    calls
  above : ∀ c ∈ calls, ∀ e, c.inPhase .pending = some e →
    ∀ old, LiveIn LogEntry.Deletes history old → LogEntry.PutsSameKey old e →
      old.version < e.version
  current : ∀ old, LiveIn LogEntry.Deletes history old → old.op = .put →
    ∃ cur, st.get old.key = some cur ∧ old.version ≤ cur.version
  stored : ∀ c ∈ calls, ∀ e, c.inPhase .stored = some e → e ∈ history

theorem Versioned.boot (st : Store) : Versioned st [] [] where
  ordered := .nil
  unique := .nil
  above := by simp
  current := fun old live => absurd live not_liveIn_nil
  stored := by simp

/-- The version of a new put follows the stored one. -/
theorem version_of_build {r : Raft} {req : Request} {e : LogEntry} {cur : Entry}
    (built : req.build r = some e) (isPut : e.op = .put) (found : r.st.get e.key = some cur) :
    e.version = cur.version + 1 := by
  cases req with
  | put key value =>
      cases built
      have stored : r.st.entries.lookup key = some cur := found
      simp only [Raft.nextVersion, stored]
  | delete key =>
      cases built
      cases isPut
  | compareAndSwap key value expect =>
      obtain ⟨version, checked, same⟩ := Option.map_eq_some_iff.mp built
      cases same
      have stored : r.st.entries.lookup key = some cur := found
      simp only [Raft.checkVersion, stored] at checked
      split at checked
      · cases checked
      · rename_i matched
        have sameVersion : cur.version = expect := by simpa using matched
        rw [← Option.some.inj checked, sameVersion]

theorem pendingPut_of_inPhase {c : Call} {e : LogEntry} (pending : c.inPhase .pending = some e)
    (isPut : e.op = .put) : c.PendingPut e.key := by
  cases c with
  | mismatch => cases pending
  | writing req entry stage =>
      obtain ⟨isPending, rfl⟩ := inPhase_writing.mp pending
      exact ⟨isPending, isPut, rfl⟩

namespace Versioned

variable {st : Store} {calls : List Call} {history : List LogEntry}

theorem refused (versioned : Versioned st calls history) (req : Request) :
    Versioned st (calls ++ [.mismatch req]) history where
  ordered := versioned.ordered
  unique := versioned.unique.concat fun _ _ => ⟨fun _ none => none.elim, fun _ _ => id⟩
  above := each_concat versioned.above fun _ isPending => by cases isPending
  current := versioned.current
  stored := each_concat versioned.stored fun _ isStored => by cases isStored

theorem called {r : Raft} {req : Request} {e : LogEntry}
    (versioned : Versioned r.st calls history) (built : req.build r = some e)
    (alone : e.op = .put → ∀ c ∈ calls, ¬ c.PendingPut e.key) :
    Versioned r.st (calls ++ [.writing req e .built]) history where
  ordered := versioned.ordered
  unique := by
    refine versioned.unique.concat fun c member => ⟨?_, ?_⟩
    · rintro key ⟨_, isPut, rfl⟩
      exact alone isPut c member
    · rintro key pending ⟨_, isPut, rfl⟩
      exact alone isPut c member pending
  above := by
    refine each_concat versioned.above ?_
    intro mine isMine old live sameKey
    obtain ⟨_, rfl⟩ := inPhase_writing.mp isMine
    obtain ⟨oldPut, isPut, onKey⟩ := sameKey
    obtain ⟨cur, found, atMost⟩ := versioned.current old live oldPut
    rw [onKey] at found
    have next := version_of_build built isPut found
    omega
  current := versioned.current
  stored := by
    refine each_concat versioned.stored ?_
    intro mine isMine
    exact absurd (inPhase_writing.mp isMine).1 (by simp [Stage.phase])

/-- The update stores an entry that is above everything live under its key. -/
theorem updated {i : Nat} {req : Request} {e : LogEntry} (versioned : Versioned st calls history)
    (current : calls[i]? = some (.writing req e .marked)) :
    Versioned (st.apply e) (calls.set i (.writing req e .updated)) (history ++ [e]) := by
  have aboveLive := versioned.above _ (List.mem_of_getElem? current) e
    (inPhase_writing.mpr ⟨rfl, rfl⟩)
  refine ⟨versioned.ordered.concat aboveLive, ?_, ?_, ?_, ?_⟩
  · refine versioned.unique.set current fun c _ _ _ => ⟨?_, ?_⟩
    · rintro key ⟨notPending, _⟩
      cases notPending
    · rintro key _ ⟨notPending, _⟩
      cases notPending
  · intro c member mine isMine old live sameKey
    obtain ⟨j, found⟩ := List.mem_iff_getElem?.mp member
    rcases getElem?_set_cases found with ⟨_, rfl⟩ | ⟨different, inCalls⟩
    · cases (inPhase_writing.mp isMine).1
    · rcases liveIn_concat live with rfl | ⟨stillLive, _⟩
      · -- the stored entry and another pending one would write the same key
        obtain ⟨isPut, minePut, onKey⟩ := sameKey
        have pending : c.PendingPut mine.key := pendingPut_of_inPhase isMine minePut
        exact absurd pending (versioned.unique i j _ c (Ne.symm different) current inCalls
          mine.key ⟨rfl, isPut, onKey⟩)
      · exact versioned.above c (List.mem_of_getElem? inCalls) mine isMine old stillLive sameKey
  · intro old live oldPut
    rcases liveIn_concat live with rfl | ⟨stillLive, notCut⟩
    · refine ⟨⟨old.key, old.value, old.version, false⟩, ?_, Nat.le_refl _⟩
      rw [Store.get_apply_self, LogEntry.stored, oldPut]
    · by_cases onKey : old.key = e.key
      · have isPut : e.op = .put := by
          cases isOp : e.op with
          | put => rfl
          | del => exact absurd ⟨isOp, onKey.symm⟩ notCut
        refine ⟨⟨e.key, e.value, e.version, false⟩, ?_, ?_⟩
        · rw [onKey, Store.get_apply_self, LogEntry.stored, isPut]
        · exact Nat.le_of_lt (aboveLive old stillLive ⟨oldPut, isPut, onKey⟩)
      · rw [Store.get_apply_ne st onKey]
        exact versioned.current old stillLive oldPut
  · refine each_set ?_ ?_
    · intro c member mine isMine
      exact List.mem_append_left _ (versioned.stored c member mine isMine)
    · intro mine isMine
      obtain ⟨_, rfl⟩ := inPhase_writing.mp isMine
      exact List.mem_append_right _ (List.mem_singleton_self _)

/-- A section that does not touch the store keeps the entry in its phase or
gives it up. -/
theorem unstored {i : Nat} {req : Request} {e e' : LogEntry} {stage stage' : Stage}
    (versioned : Versioned st calls history)
    (current : calls[i]? = some (.writing req e stage))
    (phase : stage'.phase = stage.phase ∨ stage'.phase = .failed)
    (entry : e'.op = e.op ∧ e'.key = e.key ∧ e'.version = e.version)
    (kept : stage.phase = .stored → e' = e) :
    Versioned st (calls.set i (.writing req e' stage')) history := by
  obtain ⟨sameOp, sameKey, sameVersion⟩ := entry
  have pendingBefore {key : String} (pending : (Call.writing req e' stage').PendingPut key) :
      (Call.writing req e stage).PendingPut key := by
    obtain ⟨isPending, isPut, onKey⟩ := pending
    rcases phase with same | failed
    · exact ⟨same.symm.trans isPending, sameOp.symm.trans isPut, sameKey.symm.trans onKey⟩
    · rw [failed] at isPending
      cases isPending
  have inSlot := List.mem_of_getElem? current
  refine ⟨versioned.ordered, ?_, ?_, versioned.current, ?_⟩
  · refine versioned.unique.set current fun c _ toOther fromOther => ⟨?_, ?_⟩
    · exact fun key pending => toOther key (pendingBefore pending)
    · exact fun key pending mine => fromOther key pending (pendingBefore mine)
  · refine each_set versioned.above ?_
    intro mine isMine old live sameKeys
    obtain ⟨isPending, rfl⟩ := inPhase_writing.mp isMine
    rcases phase with same | failed
    · rw [sameVersion]
      refine versioned.above _ inSlot e (inPhase_writing.mpr ⟨same.symm.trans isPending, rfl⟩)
        old live ?_
      exact ⟨sameKeys.1, sameOp.symm.trans sameKeys.2.1, sameKeys.2.2.trans sameKey⟩
    · rw [failed] at isPending
      cases isPending
  · refine each_set versioned.stored ?_
    intro mine isMine
    obtain ⟨isStored, rfl⟩ := inPhase_writing.mp isMine
    rcases phase with same | failed
    · have wasStored : stage.phase = .stored := same.symm.trans isStored
      rw [kept wasStored]
      exact versioned.stored _ inSlot e (inPhase_writing.mpr ⟨wasStored, rfl⟩)
    · rw [failed] at isStored
      cases isStored

theorem of_transition {w next : World} {act : Act}
    (versioned : Versioned w.node.raft.st w.calls w.history) (exclusive : w.Exclusive act)
    (moved : Transition w act next) :
    Versioned next.node.raft.st next.calls next.history := by
  cases moved with
  | refused => exact versioned.refused _
  | @called req e built =>
      refine versioned.called built ?_
      intro isPut
      cases req with
      | put key value =>
          cases built
          exact exclusive
      | delete key =>
          cases built
          cases isPut
      | compareAndSwap key value expect =>
          obtain ⟨version, _, same⟩ := Option.map_eq_some_iff.mp built
          cases same
          exact exclusive
  | @ran i env req e e' stage stage' node current ran =>
      rcases ran.store_cases with ⟨rfl, rfl, rfl, stored⟩ | ⟨notMarked, sameStore, phase⟩
      · rw [stored, if_pos rfl]
        exact versioned.updated current
      · have notSkipped : stage'.phase = stage.phase ∨ stage'.phase = .failed := by
          rcases phase with same | failed | ⟨rfl, passed⟩
          · exact Or.inl same
          · exact Or.inr failed
          · have notPassed : w.NotPassed i := exclusive
            exact absurd passed (Nat.not_le.mpr (notPassed.lt current))
        rw [sameStore, if_neg notMarked]
        exact versioned.unstored current notSkipped ran.entry_eq ran.entry_of_stored
  | copied | built | written | closed | renamed | truncated | gaveUp | electionTimeout =>
      exact versioned

end Versioned

/-- The call writes what its request says. -/
def Describes : Request → LogEntry → Prop
  | .put key _, e => e.op = .put ∧ e.key = key
  | .delete key, e => e.op = .del ∧ e.key = key
  | .compareAndSwap key _ expect, e => e.op = .put ∧ e.key = key ∧ e.version = expect + 1

theorem describes_of_build {r : Raft} {req : Request} {e : LogEntry}
    (built : req.build r = some e) : Describes req e := by
  cases req with
  | put | delete =>
      cases built
      exact ⟨rfl, rfl⟩
  | compareAndSwap key value expect =>
      obtain ⟨version, checked, same⟩ := Option.map_eq_some_iff.mp built
      cases same
      exact ⟨rfl, rfl, Node.checkVersion_eq_some checked⟩

theorem Describes.congr {req : Request} {e e' : LogEntry} (describes : Describes req e)
    (same : e'.op = e.op ∧ e'.key = e.key ∧ e'.version = e.version) : Describes req e' := by
  obtain ⟨sameOp, sameKey, sameVersion⟩ := same
  cases req with
  | put | delete =>
      simp only [Describes, sameOp, sameKey]
      exact describes
  | compareAndSwap =>
      simp only [Describes, sameOp, sameKey, sameVersion]
      exact describes

theorem describes_of_transition {w next : World} {act : Act}
    (described : ∀ c ∈ w.calls, ∀ req e stage, c = .writing req e stage → Describes req e)
    (moved : Transition w act next) :
    ∀ c ∈ next.calls, ∀ req e stage, c = .writing req e stage → Describes req e := by
  cases moved with
  | refused => exact each_concat described fun _ _ _ isWriting => by cases isWriting
  | called built =>
      refine each_concat described ?_
      rintro _ _ _ ⟨⟩
      exact describes_of_build built
  | ran current ran =>
      refine each_set described ?_
      rintro _ _ _ ⟨⟩
      exact (described _ (List.mem_of_getElem? current) _ _ _ rfl).congr ran.entry_eq
  | copied | built | written | closed | renamed | truncated | gaveUp | electionTimeout =>
      exact described

/-- The two entries reached the store one after the other, and a deletion of their
key reached it in between. -/
def DeletedBetween (history : List LogEntry) (e e' : LogEntry) : Prop :=
  ∃ before between after,
    (history = before ++ e :: between ++ e' :: after ∨
        history = before ++ e' :: between ++ e :: after) ∧
      ∃ d ∈ between, d.op = .del ∧ d.key = e.key

/-- Successful puts of one key with the same version have a deletion between them. -/
def VersionsDistinct (w : World) : Prop :=
  ∀ (i j : Nat) (first second : Call) (e e' : LogEntry), i ≠ j →
    w.calls[i]? = some first → w.calls[j]? = some second →
    first.succeeded = some e → second.succeeded = some e' →
    e.PutsSameKey e' → e.version = e'.version → DeletedBetween w.history e e'

/-- Successful compare-and-swaps of one key with the same expected version have a
deletion between them. -/
def SwapsOnce (w : World) : Prop :=
  ∀ (i j : Nat) key value value' expect e e' reply reply', i ≠ j →
    w.calls[i]? = some (.writing (.compareAndSwap key value expect) e (.returned reply)) →
    w.calls[j]? = some (.writing (.compareAndSwap key value' expect) e' (.returned reply')) →
    DeletedBetween w.history e e'

theorem versionsDistinct_of_versioned {w : World}
    (versioned : Versioned w.node.raft.st w.calls w.history)
    (numbered : Numbered w.node.raft.log w.calls) : w.VersionsDistinct := by
  intro i j first second e e' different isFirst isSecond firstDone secondDone sameKey sameVersion
  have done {c : Call} {entry : LogEntry} (succeeded : c.succeeded = some entry) :
      c.numbered = some entry ∧ c.inPhase .stored = some entry := by
    unfold Call.succeeded at succeeded
    split at succeeded
    · cases succeeded
      exact ⟨rfl, rfl⟩
    · cases succeeded
  obtain ⟨firstNumbered, firstStored⟩ := done firstDone
  obtain ⟨secondNumbered, secondStored⟩ := done secondDone
  have differentEntries : e ≠ e' := by
    intro same
    exact numbered.distinct i j first second different isFirst isSecond e e' firstNumbered
      secondNumbered (congrArg LogEntry.index same)
  obtain ⟨isPut, isPut', onKey⟩ := sameKey
  obtain ⟨before, between, after, placed⟩ := versioned.ordered.cut_between
    (versioned.stored first (List.mem_of_getElem? isFirst) e firstStored)
    (versioned.stored second (List.mem_of_getElem? isSecond) e' secondStored)
    differentEntries ⟨isPut, isPut', onKey⟩ ⟨isPut', isPut, onKey.symm⟩ sameVersion
  rcases placed with ⟨forth, d, member, isDel, delKey⟩ | ⟨back, d, member, isDel, delKey⟩
  · exact ⟨before, between, after, Or.inl forth, d, member, isDel, delKey⟩
  · exact ⟨before, between, after, Or.inr back, d, member, isDel, delKey.trans onKey.symm⟩

theorem swapsOnce_of_distinct {w : World} (distinct : w.VersionsDistinct)
    (described : ∀ c ∈ w.calls, ∀ req e stage, c = .writing req e stage → Describes req e) :
    w.SwapsOnce := by
  intro i j key value value' expect e e' reply reply' different isFirst isSecond
  obtain ⟨isPut, onKey, version⟩ := described _ (List.mem_of_getElem? isFirst) _ _ _ rfl
  obtain ⟨isPut', onKey', version'⟩ := described _ (List.mem_of_getElem? isSecond) _ _ _ rfl
  exact distinct i j _ _ e e' different isFirst isSecond rfl rfl
    ⟨isPut, isPut', onKey.trans onKey'.symm⟩ (version.trans version'.symm)

/-- In every interleaving in which versions are read while no other call writes
the key and no entry is dropped, two successful puts of one key with the same
version have a deletion of the key between them, and so have two successful
compare-and-swaps of one key with the same expected version. -/
theorem successful_writes_have_distinct_versions {n : Node} {acts : List Act} {w : World}
    (exclusive : Guarded step Exclusive (boot n) acts)
    (reached : execute step (boot n) acts = some w) : w.VersionsDistinct ∧ w.SwapsOnce := by
  obtain ⟨versioned, numbered, described⟩ := invariant_of_guarded step
    (fun w => Versioned w.node.raft.st w.calls w.history ∧
      Numbered w.node.raft.log w.calls ∧
      ∀ c ∈ w.calls, ∀ req e stage, c = .writing req e stage → Describes req e)
    (by
      intro state act next ⟨versioned, numbered, described⟩ exclusive stepped
      have moved := transition_of_step stepped
      exact ⟨versioned.of_transition exclusive moved, numbered.of_transition moved,
        describes_of_transition described moved⟩)
    ⟨.boot n.raft.st, .boot n.raft.log, by simp [boot]⟩ exclusive reached
  have distinct := versionsDistinct_of_versioned versioned numbered
  exact ⟨distinct, swapsOnce_of_distinct distinct described⟩

theorem successful_writes_have_distinct_versions_two_keys :
    ∃ w, execute step (boot testNode)
        ([.call (.compareAndSwap "a" [1] 0), .call (.put "b" [2])] ++ finishCall 0 ++
          [.call (.compareAndSwap "a" [3] 1)] ++ finishCall 1 ++ finishCall 2) = some w ∧
      (w.calls.filterMap Call.succeeded).map LogEntry.version = [1, 1, 2] ∧
      w.VersionsDistinct ∧ w.SwapsOnce := by
  refine exists_of_tested step
    (fun w => (w.calls.filterMap Call.succeeded).map LogEntry.version = [1, 1, 2]) (by decide) ?_
  intro w reached versions
  exact ⟨versions, successful_writes_have_distinct_versions
    (guarded_of_check step (by decide)) reached⟩

/-- Two clients read that the key is absent, and both compare-and-swaps succeed. -/
theorem overlapping_swaps_both_succeed :
    ∃ w, execute step (boot testNode)
        ([.call (.compareAndSwap "a" [1] 0), .call (.compareAndSwap "a" [2] 0)] ++
          finishCall 0 ++ finishCall 1) = some w ∧
      w.calls[0]? = some (.writing (.compareAndSwap "a" [1] 0) ⟨1, 1, .put, "a", [1], 1⟩
        (.returned (.entry (some ⟨"a", [1], 1, false⟩)))) ∧
      w.calls[1]? = some (.writing (.compareAndSwap "a" [2] 0) ⟨2, 1, .put, "a", [2], 1⟩
        (.returned (.entry (some ⟨"a", [2], 1, false⟩)))) ∧
      (∀ e ∈ w.history, e.op = .put) ∧ ¬ w.VersionsDistinct ∧ ¬ w.SwapsOnce := by
  refine exists_of_tested step
    (fun w =>
      w.calls[0]? = some (.writing (.compareAndSwap "a" [1] 0) ⟨1, 1, .put, "a", [1], 1⟩
        (.returned (.entry (some ⟨"a", [1], 1, false⟩)))) ∧
      w.calls[1]? = some (.writing (.compareAndSwap "a" [2] 0) ⟨2, 1, .put, "a", [2], 1⟩
        (.returned (.entry (some ⟨"a", [2], 1, false⟩)))) ∧
      ∀ e ∈ w.history, e.op = .put) (by decide) ?_
  rintro w _ ⟨first, second, noDelete⟩
  have undeleted (e e' : LogEntry) : ¬ DeletedBetween w.history e e' := by
    rintro ⟨before, between, after, placed, d, member, isDel, _⟩
    have inHistory : d ∈ w.history := by
      rcases placed with forth | back
      · rw [forth]
        simp [member]
      · rw [back]
        simp [member]
    rw [noDelete d inHistory] at isDel
    cases isDel
  refine ⟨first, second, noDelete, ?_, ?_⟩
  · intro distinct
    exact undeleted _ _ (distinct 0 1 _ _ _ _ (by decide) first second rfl rfl
      ⟨rfl, rfl, rfl⟩ rfl)
  · intro once
    exact undeleted _ _ (once 0 1 _ _ _ _ _ _ _ _ (by decide) first second)

end World

end MiniCloud.Db
