import MiniCloud.Db.Concurrent

/-!
# The store and the log under concurrent writes

`applyLocked` drops an entry when a later one was let through before it, and it
lets an entry through under one lock and stores it under another.  So the store
may miss entries of the log, and may have taken two entries in the wrong order.
Neither happens when every call passes the guard before the calls after it, and no
call stores its entry while an earlier one that passed the guard has yet to do so.
-/

namespace MiniCloud.Db

open MiniCloud.Library

/-- The entry of a call between the guard of `applyLocked` and the update. -/
def Call.marked : Call → Option LogEntry
  | .writing _ e .marked => some e
  | _ => none

namespace World

variable {Lane : Type*} (lane : LogEntry → Lane)

/-- No entry is dropped, and an entry is stored only when no earlier entry of its
lane waits between the guard and the update. -/
def InTurn (w : World) : Act → Prop
  | .proceed i _ =>
      w.NotPassed i ∧
        ∀ e ∈ (w.calls[i]?).bind Call.marked, ∀ e' ∈ w.calls.filterMap Call.marked,
          lane e' = lane e → e.index ≤ e'.index
  | .call _ => True
  | .snap _ => True
  | .electionTimeout => True

instance [DecidableEq Lane] (w : World) (act : Act) : Decidable (w.InTurn lane act) := by
  cases act <;> unfold InTurn <;> infer_instance

/-- The log is numbered through and is made of the entries of the calls. -/
structure Logged (log : List LogEntry) (calls : List Call) (history : List LogEntry) :
    Prop where
  sorted : log.Pairwise fun earlier later => earlier.index < later.index
  below : ∀ e ∈ log, e.index ≤ log.length
  owned : ∀ e ∈ log, ∃ c ∈ calls, c.numbered = some e
  logged : ∀ c ∈ calls, ∀ e, c.numbered = some e → e ∈ log
  recorded : ∀ e ∈ history, e ∈ log

/-- The store has taken the entries of each lane in the order of their numbers. -/
structure Ordered (st : Store) (lastApplied : Nat) (calls : List Call)
    (history : List LogEntry) : Prop where
  store : st = history.foldl Store.apply .empty
  stored : ∀ c ∈ calls, ∀ e, c.inPhase .stored = some e → e ∈ history
  applied : ∀ e ∈ history, e.index ≤ lastApplied
  passed : ∀ c ∈ calls, ∀ e, c.marked = some e → e.index ≤ lastApplied
  waiting : ∀ c ∈ calls, ∀ e, c.marked = some e →
    ∀ earlier ∈ history, lane earlier = lane e → earlier.index < e.index
  ranked : RankedPerKey lane LogEntry.index history

namespace Logged

variable {log history : List LogEntry} {calls : List Call}

theorem boot : Logged [] [] [] := by
  refine ⟨.nil, ?_, ?_, ?_, ?_⟩ <;> simp

theorem concat (logged : Logged log calls history) {c : Call} (unnumbered : c.numbered = none) :
    Logged log (calls ++ [c]) history where
  sorted := logged.sorted
  below := logged.below
  owned := by
    intro e member
    obtain ⟨owner, isCall, numbered⟩ := logged.owned e member
    exact ⟨owner, List.mem_append_left _ isCall, numbered⟩
  logged := each_concat logged.logged (by simp [unnumbered])
  recorded := logged.recorded

/-- Every entry of the log keeps its call when a call that had no number, or the
same entry, is changed. -/
theorem owned_set (logged : Logged log calls history) {i : Nat} {old new : Call}
    (current : calls[i]? = some old) (kept : ∀ e, old.numbered = some e → new.numbered = some e) :
    ∀ e ∈ log, ∃ c ∈ calls.set i new, c.numbered = some e := by
  intro e member
  obtain ⟨owner, isCall, numbered⟩ := logged.owned e member
  obtain ⟨j, found⟩ := List.mem_iff_getElem?.mp isCall
  by_cases same : j = i
  · subst same
    rw [current, Option.some.injEq] at found
    subst found
    exact ⟨new, mem_set_self current, kept e numbered⟩
  · exact ⟨owner, mem_set_other same found, numbered⟩

theorem of_section {n node : Node} {i : Nat} {req : Request} {e e' : LogEntry} {env : WriteEnv}
    {stage stage' : Stage} (logged : Logged n.raft.log calls history)
    (current : calls[i]? = some (.writing req e stage))
    (ran : Node.Section n e env stage e' stage' node) :
    Logged node.raft.log (calls.set i (.writing req e' stage'))
      (if stage = .marked then history ++ [e] else history) := by
  have placed : (Call.writing req e' stage').numbered = some e' := if_neg ran.stage_ne_built
  rcases ran.log_cases with ⟨rfl, isNew, longer⟩ | ⟨later, rfl, sameLog⟩
  · have index : e'.index = n.raft.log.length + 1 := by rw [isNew, Raft.number_index]
    rw [if_neg (by simp), longer]
    refine ⟨?_, ?_, ?_, ?_, ?_⟩
    · refine List.pairwise_append.mpr ⟨logged.sorted, List.pairwise_singleton _ _, ?_⟩
      intro earlier member last isLast
      have atMost := logged.below earlier member
      rw [List.mem_singleton.mp isLast]
      omega
    · refine each_concat ?_ ?_
      · intro earlier member
        exact Nat.le_trans (logged.below earlier member) (by simp)
      · rw [index, List.length_append]
        exact Nat.le_refl _
    · refine each_concat (logged.owned_set current fun _ none => by cases none) ?_
      exact ⟨_, mem_set_self current, placed⟩
    · refine each_set ?_ ?_
      · intro c member other numbered
        exact List.mem_append_left _ (logged.logged c member other numbered)
      · intro other isOther
        rw [placed, Option.some.injEq] at isOther
        rw [← isOther]
        exact List.mem_append_right _ (List.mem_singleton_self _)
    · intro other member
      exact List.mem_append_left _ (logged.recorded other member)
  · have before : (Call.writing req e' stage).numbered = some e' := if_neg later
    have inLog : e' ∈ n.raft.log :=
      logged.logged _ (List.mem_of_getElem? current) e' before
    rw [sameLog]
    refine ⟨logged.sorted, logged.below, ?_, each_set logged.logged ?_, ?_⟩
    · exact logged.owned_set current fun other isOther => by
        rw [placed, ← before]
        exact isOther
    · intro other isOther
      rw [placed, Option.some.injEq] at isOther
      rw [← isOther]
      exact inLog
    · split
      · exact each_concat logged.recorded inLog
      · exact logged.recorded

theorem of_transition {w next : World} {act : Act}
    (logged : Logged w.node.raft.log w.calls w.history) (moved : Transition w act next) :
    Logged next.node.raft.log next.calls next.history := by
  cases moved with
  | refused => exact logged.concat rfl
  | called => exact logged.concat rfl
  | ran current ran => exact logged.of_section current ran
  | copied | built | written | closed | renamed | truncated | gaveUp | electionTimeout =>
      exact logged

end Logged

theorem marked_writing {req : Request} {e found : LogEntry} {stage : Stage} :
    (Call.writing req e stage).marked = some found ↔ stage = .marked ∧ e = found := by
  cases stage <;> simp [Call.marked]

theorem numbered_of_marked {c : Call} {e : LogEntry} (isMarked : c.marked = some e) :
    c.numbered = some e := by
  cases c with
  | mismatch => cases isMarked
  | writing req entry stage =>
      obtain ⟨rfl, rfl⟩ := marked_writing.mp isMarked
      rfl

namespace Ordered

variable {lane} {st : Store} {lastApplied : Nat} {calls : List Call} {history : List LogEntry}
  {i : Nat} {req : Request} {e e' : LogEntry} {stage stage' : Stage}

theorem boot : Ordered lane .empty lastApplied [] [] := by
  refine ⟨rfl, ?_, ?_, ?_, ?_, .nil⟩ <;> simp

theorem concat (ordered : Ordered lane st lastApplied calls history) {c : Call}
    (unstored : c.inPhase .stored = none) (unmarked : c.marked = none) :
    Ordered lane st lastApplied (calls ++ [c]) history where
  store := ordered.store
  stored := each_concat ordered.stored (by simp [unstored])
  applied := ordered.applied
  passed := each_concat ordered.passed (by simp [unmarked])
  waiting := each_concat ordered.waiting (by simp [unmarked])
  ranked := ordered.ranked

/-- The update of a call whose turn it is. -/
theorem updated (ordered : Ordered lane st lastApplied calls history)
    (current : calls[i]? = some (.writing req e .marked))
    (first : ∀ j c e', j ≠ i → calls[j]? = some c → c.marked = some e' → lane e' = lane e →
      e.index < e'.index) :
    Ordered lane (st.apply e) lastApplied (calls.set i (.writing req e .updated))
      (history ++ [e]) := by
  have inSlot := List.mem_of_getElem? current
  have isMarked : (Call.writing req e .marked).marked = some e := rfl
  refine ⟨?_, ?_, ?_, ?_, ?_, ?_⟩
  · rw [List.foldl_append, ← ordered.store]
    rfl
  · refine each_set ?_ ?_
    · intro c member other isStored
      exact List.mem_append_left _ (ordered.stored c member other isStored)
    · intro other isOther
      rw [← (inPhase_writing.mp isOther).2]
      exact List.mem_append_right _ (List.mem_singleton_self _)
  · exact each_concat ordered.applied (ordered.passed _ inSlot e isMarked)
  · exact each_set ordered.passed fun other isOther => by cases isOther
  · intro c member other isOther
    obtain ⟨j, found⟩ := List.mem_iff_getElem?.mp member
    rcases getElem?_set_cases found with ⟨_, rfl⟩ | ⟨different, inCalls⟩
    · cases isOther
    · refine each_concat (ordered.waiting c (List.mem_of_getElem? inCalls) other isOther) ?_
      intro sameLane
      exact first j c other different inCalls isOther sameLane.symm
  · refine List.pairwise_append.mpr ⟨ordered.ranked, List.pairwise_singleton _ _, ?_⟩
    intro earlier member last isLast
    rw [List.mem_singleton.mp isLast]
    exact ordered.waiting _ inSlot e isMarked earlier member

/-- A call that passes the guard has a larger number than all that passed before. -/
theorem marked (ordered : Ordered lane st lastApplied calls history) (ahead : lastApplied < e.index) :
    Ordered lane st e.index (calls.set i (.writing req e .marked)) history where
  store := ordered.store
  stored := each_set ordered.stored fun _ isOther => by cases (inPhase_writing.mp isOther).1
  applied := fun other member =>
    Nat.le_trans (ordered.applied other member) (Nat.le_of_lt ahead)
  passed := by
    refine each_set ?_ ?_
    · intro c member other isMarked
      exact Nat.le_trans (ordered.passed c member other isMarked) (Nat.le_of_lt ahead)
    · intro other isOther
      rw [(marked_writing.mp isOther).2]
  waiting := by
    refine each_set ordered.waiting ?_
    intro other isOther earlier member _
    rw [← (marked_writing.mp isOther).2]
    exact Nat.lt_of_le_of_lt (ordered.applied earlier member) ahead
  ranked := ordered.ranked

/-- Every other section. -/
theorem unmarked (ordered : Ordered lane st lastApplied calls history)
    (current : calls[i]? = some (.writing req e stage)) (notMarked : stage' ≠ .marked)
    (phase : stage'.phase = stage.phase ∨ stage'.phase = .failed)
    (kept : stage.phase = .stored → e' = e) :
    Ordered lane st lastApplied (calls.set i (.writing req e' stage')) history where
  store := ordered.store
  stored := by
    refine each_set ordered.stored ?_
    intro other isOther
    obtain ⟨isStored, rfl⟩ := inPhase_writing.mp isOther
    rcases phase with same | failed
    · have wasStored : stage.phase = .stored := same.symm.trans isStored
      rw [kept wasStored]
      exact ordered.stored _ (List.mem_of_getElem? current) e
        (inPhase_writing.mpr ⟨wasStored, rfl⟩)
    · rw [failed] at isStored
      cases isStored
  applied := ordered.applied
  passed := each_set ordered.passed fun _ isOther =>
    absurd (marked_writing.mp isOther).1 notMarked
  waiting := each_set ordered.waiting fun _ isOther =>
    absurd (marked_writing.mp isOther).1 notMarked
  ranked := ordered.ranked

theorem of_section {w : World} {env : WriteEnv} {node : Node}
    (ordered : Ordered lane w.node.raft.st w.node.raft.lastApplied w.calls w.history)
    (numbered : Numbered w.node.raft.log w.calls) (inTurn : w.InTurn lane (.proceed i env))
    (current : w.calls[i]? = some (.writing req e stage))
    (ran : Node.Section w.node e env stage e' stage' node) :
    Ordered lane node.raft.st node.raft.lastApplied (w.calls.set i (.writing req e' stage'))
      (if stage = .marked then w.history ++ [e] else w.history) := by
  obtain ⟨notPassed, turn⟩ := inTurn
  rcases ran.store_cases with ⟨rfl, rfl, rfl, stored⟩ | ⟨notMarked, sameStore, phase⟩
  · have sameApplied : node.raft.lastApplied = w.node.raft.lastApplied := by
      rcases ran.applied_cases with ⟨isCommitted, _⟩ | ⟨_, same⟩
      · cases isCommitted
      · exact same
    rw [stored, sameApplied, if_pos rfl]
    refine ordered.updated current ?_
    intro j c other different found isMarked sameLane
    have isSlot : e' ∈ (w.calls[i]?).bind Call.marked := by
      rw [current]
      rfl
    have atMost := turn e' isSlot other
      (List.mem_filterMap.mpr ⟨c, List.mem_of_getElem? found, isMarked⟩) sameLane
    -- two calls never have the same number
    have distinct := numbered.distinct i j _ c (Ne.symm different) current found e' other rfl
      (numbered_of_marked isMarked)
    omega
  · rw [sameStore, if_neg notMarked]
    rcases ran.applied_cases with ⟨rfl, rfl, rfl, ahead, isIndex⟩ | ⟨unmarked, same⟩
    · rw [isIndex]
      exact ordered.marked ahead
    · rw [same]
      refine ordered.unmarked current unmarked ?_ ran.entry_of_stored
      rcases phase with same | failed | ⟨rfl, passed⟩
      · exact Or.inl same
      · exact Or.inr failed
      · exact absurd passed (Nat.not_le.mpr (notPassed.lt current))

theorem of_transition {w next : World} {act : Act}
    (ordered : Ordered lane w.node.raft.st w.node.raft.lastApplied w.calls w.history)
    (numbered : Numbered w.node.raft.log w.calls) (inTurn : w.InTurn lane act)
    (moved : Transition w act next) :
    Ordered lane next.node.raft.st next.node.raft.lastApplied next.calls next.history := by
  cases moved with
  | refused => exact ordered.concat rfl rfl
  | called => exact ordered.concat rfl rfl
  | ran current ran => exact ordered.of_section numbered inTurn current ran
  | copied | built | written | closed | renamed | truncated | gaveUp | electionTimeout =>
      exact ordered

end Ordered

/-! ## Agreement once all calls have returned -/

/-- The log is in the order of the indices, every entry of it has reached the store,
the entries of each lane in that order, and the map is the one that applying the
log from the start gives. -/
structure AgreesWithLog (w : World) : Prop where
  sorted : w.node.raft.log.Pairwise fun earlier later => earlier.index < later.index
  complete : ∀ e, e ∈ w.history ↔ e ∈ w.node.raft.log
  inOrder : RankedPerKey lane LogEntry.index w.history
  content : w.node.raft.st.entries.view =
    (w.node.raft.log.foldl Store.apply .empty).entries.view

/-- When every call has succeeded, every entry of the log has reached the store. -/
theorem complete_of_succeeded {w : World} {lastApplied : Nat} {st : Store}
    (logged : Logged w.node.raft.log w.calls w.history)
    (ordered : Ordered lane st lastApplied w.calls w.history)
    (succeeded : ∀ c ∈ w.calls, c.succeeded ≠ none) :
    ∀ e, e ∈ w.history ↔ e ∈ w.node.raft.log := by
  intro e
  refine ⟨logged.recorded e, ?_⟩
  intro inLog
  obtain ⟨c, member, numbered⟩ := logged.owned e inLog
  obtain ⟨done, isDone⟩ := Option.ne_none_iff_exists'.mp (succeeded c member)
  unfold Call.succeeded at isDone
  split at isDone
  · have same : e = done := by
      cases isDone
      exact (Option.some.inj numbered).symm
    rw [same]
    refine ordered.stored _ member done ?_
    cases isDone
    rfl
  · cases isDone

section Runs

variable {lane} {cfg : Config} {n : Node} {acts : List Act} {w : World}

theorem ordered_of_run (started : Node.Started cfg n)
    (inTurn : Guarded step (InTurn lane) (boot n) acts)
    (reached : execute step (boot n) acts = some w) :
    Ordered lane w.node.raft.st w.node.raft.lastApplied w.calls w.history ∧
      Logged w.node.raft.log w.calls w.history := by
  have recovered := (Node.recovered_of_openOn started).2.2
  have emptyLog : n.raft.log = [] := recovered.log
  have emptyStore : n.raft.st = .empty := congrArg Prod.fst recovered.core
  obtain ⟨ordered, _, logged⟩ := invariant_of_guarded step
    (fun w => Ordered lane w.node.raft.st w.node.raft.lastApplied w.calls w.history ∧
      Numbered w.node.raft.log w.calls ∧ Logged w.node.raft.log w.calls w.history)
    (by
      intro state act next ⟨ordered, numbered, logged⟩ inTurn stepped
      have moved := transition_of_step stepped
      exact ⟨ordered.of_transition numbered inTurn moved, numbered.of_transition moved,
        logged.of_transition moved⟩)
    (by
      refine ⟨?_, .boot n.raft.log, ?_⟩
      · change Ordered lane n.raft.st n.raft.lastApplied [] []
        rw [emptyStore]
        exact .boot
      · change Logged n.raft.log [] []
        rw [emptyLog]
        exact .boot)
    inTurn reached
  exact ⟨ordered, logged⟩

end Runs

theorem agreesWithLog_of_ordered {w : World}
    (ordered : Ordered LogEntry.key w.node.raft.st w.node.raft.lastApplied w.calls w.history)
    (logged : Logged w.node.raft.log w.calls w.history)
    (succeeded : ∀ c ∈ w.calls, c.succeeded ≠ none) : w.AgreesWithLog LogEntry.key := by
  have complete := complete_of_succeeded LogEntry.key logged ordered succeeded
  have logRanked : RankedPerKey LogEntry.key LogEntry.index w.node.raft.log := by
    refine logged.sorted.imp ?_
    intro earlier later below _
    exact below
  refine ⟨logged.sorted, complete, ordered.ranked, ?_⟩
  rw [ordered.store, Store.view_foldl_apply, Store.view_foldl_apply]
  exact replay_eq_of_ranked ordered.ranked logRanked complete _

/-- With a single lane the store has taken the log itself. -/
theorem history_eq_log {w : World}
    (ordered : Ordered (fun _ => ()) w.node.raft.st w.node.raft.lastApplied w.calls w.history)
    (logged : Logged w.node.raft.log w.calls w.history)
    (succeeded : ∀ c ∈ w.calls, c.succeeded ≠ none) : w.history = w.node.raft.log := by
  have complete := complete_of_succeeded (fun _ => ()) logged ordered succeeded
  have sorted : w.history.Pairwise fun earlier later => earlier.index < later.index :=
    ordered.ranked.imp fun below => below rfl
  have nodup {entries : List LogEntry}
      (sorted : entries.Pairwise fun earlier later => earlier.index < later.index) :
      entries.Nodup :=
    sorted.imp fun below same => absurd (congrArg LogEntry.index same) (Nat.ne_of_lt below)
  refine List.Perm.eq_of_pairwise ?_ sorted logged.sorted
    ((List.perm_ext_iff_of_nodup (nodup sorted) (nodup logged.sorted)).mpr complete)
  intro first second _ _ below above
  exact absurd (Nat.lt_trans below above) (Nat.lt_irrefl _)

/-- In every interleaving on a fresh node, once all calls have succeeded, the store
agrees with the log when no entry is dropped and the entries of one key are stored
in turn; when all entries are stored in turn, it has taken exactly the log. -/
theorem store_agrees_with_log {cfg : Config} {n : Node} (started : Node.Started cfg n) :
    (∀ acts w, Guarded step (InTurn LogEntry.key) (boot n) acts →
      execute step (boot n) acts = some w → (∀ c ∈ w.calls, c.succeeded ≠ none) →
        w.AgreesWithLog LogEntry.key) ∧
    ∀ acts w, Guarded step (InTurn fun _ => ()) (boot n) acts →
      execute step (boot n) acts = some w → (∀ c ∈ w.calls, c.succeeded ≠ none) →
        w.history = w.node.raft.log ∧
          w.node.raft.st = w.node.raft.log.foldl Store.apply .empty := by
  constructor
  · intro acts w inTurn reached succeeded
    obtain ⟨ordered, logged⟩ := ordered_of_run started inTurn reached
    exact agreesWithLog_of_ordered ordered logged succeeded
  · intro acts w inTurn reached succeeded
    obtain ⟨ordered, logged⟩ := ordered_of_run started inTurn reached
    have sameEntries := history_eq_log ordered logged succeeded
    refine ⟨sameEntries, ?_⟩
    rw [← sameEntries]
    exact ordered.store

theorem store_agrees_with_log_interleaved :
    ∃ w, execute step (boot testNode)
        ([.call (.put "a" [1]), .call (.delete "a"), .proceed 0 ⟨.ok, []⟩, .proceed 1 ⟨.ok, []⟩] ++
          (finishCall 0).tail ++ (finishCall 1).tail) = some w ∧
      w.calls.length = 2 ∧ w.AgreesWithLog LogEntry.key := by
  refine exists_of_tested step
    (fun w => w.calls.length = 2 ∧ ∀ c ∈ w.calls, c.succeeded ≠ none) (by decide) ?_
  rintro w reached ⟨calls, succeeded⟩
  exact ⟨calls, (store_agrees_with_log testNode_started).1 _ w
    (guarded_of_check step (by decide)) reached succeeded⟩

/-- The second call overtakes the first between its append and the guard, and the
entry of the first is dropped although both calls succeed. -/
theorem overtaken_put_dropped :
    ∃ w, execute step (boot testNode)
        ([.call (.put "a" [1]), .call (.put "b" [2]), .proceed 0 ⟨.ok, []⟩] ++
          finishCall 1 ++ List.replicate 5 (.proceed 0 ⟨.ok, []⟩)) = some w ∧
      (∀ c ∈ w.calls, c.succeeded ≠ none) ∧ w.node.raft.st.entries.view "a" = none ∧
      (w.node.raft.log.foldl Store.apply .empty).entries.view "a" = some ([1], 1) := by
  exact exists_of_execute_test step (boot testNode) _
    (fun w => (∀ c ∈ w.calls, c.succeeded ≠ none) ∧ w.node.raft.st.entries.view "a" = none ∧
      (w.node.raft.log.foldl Store.apply .empty).entries.view "a" = some ([1], 1)) (by decide)

end World

end MiniCloud.Db
