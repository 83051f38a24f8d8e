import MiniCloud.Db.FailedWrites

/-!
# The representation invariant of the log

The log, `commitIndex` and `lastApplied` are changed by five operations that do
not agree on how an entry is numbered.  `append` counts the log in memory;
`recover` rebuilds that log from the journal alone, so it is shorter than the
largest index after a snapshot; `recover` applies every journaled entry but
advances `commitIndex` for a single peer only; and `replicate` on a single peer
sets `commitIndex` back to the number of the entry.

The terms are ordered in every run.  The rest of the invariant is followed
through each operation under a condition on writes and on restarts.
-/

namespace MiniCloud.Db

open MiniCloud.Library

/-! ## Numbered logs -/

/-- The indices of the log are consecutive, starting after `base`. -/
def NumberedAfter (base : Nat) (log : List LogEntry) : Prop :=
  ∀ i, (inLog : i < log.length) → log[i].index = base + i + 1

instance (base : Nat) (log : List LogEntry) : Decidable (NumberedAfter base log) :=
  inferInstanceAs (Decidable (∀ i, (inLog : i < log.length) → log[i].index = base + i + 1))

theorem numberedAfter_nil (base : Nat) : NumberedAfter base [] := by
  intro i inLog
  exact absurd inLog (Nat.not_lt_zero i)

theorem NumberedAfter.concat {base : Nat} {log : List LogEntry} {e : LogEntry}
    (numbered : NumberedAfter base log) (follows : e.index = base + log.length + 1) :
    NumberedAfter base (log ++ [e]) := by
  intro i inLog
  rw [List.getElem_append]
  split
  · rename_i earlier
    exact numbered i earlier
  · rename_i last
    have atEnd : i = log.length := by
      rw [List.length_append, List.length_singleton] at inLog
      omega
    subst atEnd
    simpa using follows

theorem NumberedAfter.index_le {base : Nat} {log : List LogEntry} {e : LogEntry}
    (numbered : NumberedAfter base log) (member : e ∈ log) : e.index ≤ base + log.length := by
  obtain ⟨i, inLog, rfl⟩ := List.getElem_of_mem member
  rw [numbered i inLog]
  omega

/-! ## Ordered terms -/

/-- The terms of the log do not decrease, and none is above `term`. -/
def TermsUpTo (term : Nat) (log : List LogEntry) : Prop :=
  (log.Pairwise fun earlier later => earlier.term ≤ later.term) ∧ ∀ e ∈ log, e.term ≤ term

theorem TermsUpTo.mono {low high : Nat} {log : List LogEntry} (ordered : TermsUpTo low log)
    (grows : low ≤ high) : TermsUpTo high log :=
  ⟨ordered.1, fun e member => Nat.le_trans (ordered.2 e member) grows⟩

theorem TermsUpTo.sublist {term : Nat} {log part : List LogEntry}
    (ordered : TermsUpTo term log) (within : part.Sublist log) : TermsUpTo term part :=
  ⟨ordered.1.sublist within, fun e member => ordered.2 e (within.subset member)⟩

theorem TermsUpTo.concat {term : Nat} {log : List LogEntry} {e : LogEntry}
    (ordered : TermsUpTo term log) (latest : e.term = term) : TermsUpTo term (log ++ [e]) := by
  constructor
  · rw [List.pairwise_append]
    refine ⟨ordered.1, List.pairwise_singleton _ _, ?_⟩
    intro earlier member last isLast
    rw [List.mem_singleton.mp isLast, latest]
    exact ordered.2 earlier member
  · intro other member
    rcases List.mem_append.mp member with inLog | isLast
    · exact ordered.2 other inLog
    · rw [List.mem_singleton.mp isLast, latest]

/-- The entries whose whole line is in the journal. -/
def wholeEntries (journal : List JournalLine) : List LogEntry :=
  journal.filterMap fun line =>
    match line with
    | .whole e => some e
    | .torn _ => none

/-- A journal that decodes yields its whole lines, in their order. -/
theorem entries_of_decodable {journal : List JournalLine}
    (decodable : (readJournal journal).failure = none) :
    (readJournal journal).entries = wholeEntries journal := by
  induction journal with
  | nil => rfl
  | cons line rest ih =>
      cases line with
      | whole e => exact congrArg (e :: ·) (ih decodable)
      | torn e =>
          cases rest with
          | nil => cases decodable
          | cons next later => cases decodable

namespace Raft

/-- The index of the last entry of the log, zero without one. -/
def lastIndex (r : Raft) : Nat := (r.log.getLast?.map LogEntry.index).getD 0

theorem lastIndex_of_numbered {r : Raft} (numbered : NumberedAfter 0 r.log) :
    r.lastIndex = r.log.length := by
  unfold lastIndex
  cases shape : r.log.getLast? with
  | none =>
      rw [List.getLast?_eq_none_iff.mp shape]
      rfl
  | some e =>
      rw [List.getLast?_eq_getElem?] at shape
      obtain ⟨inLog, same⟩ := List.getElem?_eq_some_iff.mp shape
      have index := numbered _ inLog
      rw [same] at index
      change e.index = r.log.length
      omega

theorem lastIndex_concat {r : Raft} {log : List LogEntry} {e : LogEntry}
    (appended : r.log = log ++ [e]) : r.lastIndex = e.index := by
  unfold lastIndex
  rw [appended, List.getLast?_concat]
  rfl

/-! ## Commit index and term of one operation -/

theorem applyLocked_marks (r : Raft) (e : LogEntry) :
    (r.applyLocked e).commitIndex = r.commitIndex ∧
      (r.applyLocked e).currentTerm = r.currentTerm := by
  obtain ⟨_, _, _, _, changed⟩ := applyLocked_changes r e
  rw [changed]
  exact ⟨rfl, rfl⟩

/-- A replay raises the term to that of every entry it reads. -/
theorem foldl_recoverEntry_term (r : Raft) (entries : List LogEntry) :
    r.currentTerm ≤ (entries.foldl recoverEntry r).currentTerm ∧
      ∀ e ∈ entries, e.term ≤ (entries.foldl recoverEntry r).currentTerm := by
  induction entries generalizing r with
  | nil => simp
  | cons e rest ih =>
      obtain ⟨grows, above⟩ := ih (r.recoverEntry e)
      have raised : (r.recoverEntry e).currentTerm =
          if r.currentTerm < e.term then e.term else r.currentTerm :=
        (applyLocked_marks _ e).2
      have bounds : r.currentTerm ≤ (r.recoverEntry e).currentTerm ∧
          e.term ≤ (r.recoverEntry e).currentTerm := by
        rw [raised]
        split <;> omega
      rw [List.foldl_cons]
      refine ⟨Nat.le_trans bounds.1 grows, ?_⟩
      intro other member
      rcases List.mem_cons.mp member with isHead | inRest
      · rw [isHead]
        exact Nat.le_trans bounds.2 grows
      · exact above other inRest

/-- A replay on a single peer commits what it applies. -/
theorem foldl_recoverEntry_commit {r : Raft} (single : r.peers.length = 1)
    (same : r.commitIndex = r.lastApplied) (entries : List LogEntry) :
    (entries.foldl recoverEntry r).commitIndex =
      (entries.foldl recoverEntry r).lastApplied := by
  induction entries generalizing r with
  | nil => exact same
  | cons e rest ih =>
      have samePeers : (r.recoverEntry e).peers = r.peers := (applyLocked_frame _ e).2.1
      have committed : (r.recoverEntry e).commitIndex =
          if r.commitIndex < e.index ∧ r.peers.length = 1 then e.index else r.commitIndex :=
        (applyLocked_marks _ e).1
      have applied : (r.recoverEntry e).lastApplied =
          (applyCore r.core e).2 := congrArg Prod.snd (core_recoverEntry r e)
      refine ih (by rw [samePeers, single]) ?_
      rw [committed, applied]
      unfold applyCore core
      simp only [single, and_true, same]
      by_cases passed : e.index ≤ r.lastApplied
      · rw [if_neg (Nat.not_lt.mpr passed), if_pos passed]
      · rw [if_pos (Nat.lt_of_not_le passed), if_neg passed]

end Raft

/-- The index of the snapshot in the directory, zero without one. -/
def Disk.snapIndex (disk : Disk) : Nat := (disk.snap.map RaftSnapshot.index).getD 0

theorem Disk.snapIndex_of_some {disk : Disk} {snap : RaftSnapshot}
    (snapshot : disk.snap = some snap) : disk.snapIndex = snap.index := by
  unfold Disk.snapIndex
  rw [snapshot]
  rfl

theorem Disk.snapIndex_of_none {disk : Disk} (noSnapshot : disk.snap = none) :
    disk.snapIndex = 0 := by
  unfold Disk.snapIndex
  rw [noSnapshot]
  rfl

namespace Node

/-- The index of the last entry that the node knows, from its log or snapshot. -/
def lastKnown (n : Node) : Nat := max n.raft.lastIndex n.disk.snapIndex

/-- The representation invariant of the log. -/
structure LogInvariant (n : Node) : Prop where
  indices : NumberedAfter 0 n.raft.log ∨ NumberedAfter n.disk.snapIndex n.raft.log
  terms : n.raft.log.Pairwise fun earlier later => earlier.term ≤ later.term
  applied : n.raft.lastApplied ≤ n.raft.commitIndex
  committed : n.raft.commitIndex ≤ n.lastKnown

/-! ## Terms in every run -/

/-- The log and the journal are ordered by terms that the node has reached. -/
def TermOrdered (n : Node) : Prop :=
  TermsUpTo n.raft.currentTerm n.raft.log ∧
    TermsUpTo n.raft.currentTerm (wholeEntries n.disk.journal)

theorem logged_term (r : Raft) (e : LogEntry) :
    r.currentTerm ≤ (r.logged e).currentTerm ∧ (r.number e).term = (r.logged e).currentTerm := by
  refine ⟨?_, rfl⟩
  change r.currentTerm ≤ if r.currentTerm = 0 then 1 else r.currentTerm
  split <;> omega

theorem termOrdered_leaves {n : Node} (ordered : n.TermOrdered) (e : LogEntry)
    {lines : List JournalLine}
    (left : wholeEntries lines = [] ∨ wholeEntries lines = [n.raft.number e]) :
    (n.leaves e lines).TermOrdered := by
  obtain ⟨grows, latest⟩ := logged_term n.raft e
  have journal : wholeEntries (n.leaves e lines).disk.journal =
      wholeEntries n.disk.journal ++ wholeEntries lines := List.filterMap_append
  refine ⟨(ordered.1.mono grows).concat latest, ?_⟩
  rw [journal]
  rcases left with nothing | line
  · rw [nothing, List.append_nil]
    exact ordered.2.mono grows
  · rw [line]
    exact (ordered.2.mono grows).concat latest

theorem termOrdered_submitted {n next : Node} {e : LogEntry} {env : WriteEnv}
    {err : Option KvError} (ordered : n.TermOrdered) (submitted : Submitted n e env err next) :
    next.TermOrdered := by
  cases submitted with
  | journalClosed closed => exact termOrdered_leaves ordered e (Or.inl rfl)
  | journalFailed opened failed =>
      refine termOrdered_leaves ordered e ?_
      cases env.write with
      | lost => exact Or.inl rfl
      | torn => exact Or.inl rfl
      | ok => exact Or.inr rfl
      | unsynced => exact Or.inr rfl
  | timedOut => exact termOrdered_leaves ordered e (Or.inr rfl)
  | acknowledged opened written quorum commitIndex =>
      -- an acknowledged entry leaves log, term and journal as a timed out one
      have left : (n.leaves e [.whole (n.raft.number e)]).TermOrdered :=
        termOrdered_leaves ordered e (Or.inr rfl)
      have term : (n.accepts e commitIndex).raft.currentTerm = (n.raft.logged e).currentTerm :=
        (Raft.applyLocked_marks ((n.raft.logged e).setCommit commitIndex) _).2
      refine ⟨?_, ?_⟩
      · rw [term, (accepts_frame n e commitIndex).1]
        exact left.1
      · rw [term]
        exact left.2

theorem snapshot_raft (n : Node) (outcome : SnapshotOutcome) :
    ∃ opened, (n.snapshot outcome).2.raft = { n.raft with journalOpen := opened } := by
  simp only [snapshot]
  split
  · exact ⟨n.raft.journalOpen, rfl⟩
  · split
    · exact ⟨n.raft.journalOpen, rfl⟩
    · cases outcome with
      | ok => exact ⟨true, rfl⟩
      | writeFailed | closeFailed | renameFailed | openFailed => exact ⟨false, rfl⟩

theorem termOrdered_snapshot {n : Node} (ordered : n.TermOrdered) (outcome : SnapshotOutcome) :
    (n.snapshot outcome).2.TermOrdered := by
  obtain ⟨opened, raft⟩ := snapshot_raft n outcome
  unfold TermOrdered
  rw [raft]
  refine ⟨ordered.1, ?_⟩
  have journal : (n.snapshot outcome).2.disk.journal = n.disk.journal ∨
      (n.snapshot outcome).2.disk.journal = [] := by
    rcases (snapshotted_snapshot n outcome).disk with ⟨_, same⟩ | ⟨_, same⟩
    · exact Or.inl same
    · exact same
  rcases journal with same | emptied
  · rw [same]
    exact ordered.2
  · rw [emptied]
    exact ordered.2.sublist (List.nil_sublist _)

/-- What a restart puts into the term and the commit index. -/
theorem marks_of_openOn {cfg : Config} {disk : Disk} {n : Node}
    (opened : openOn cfg disk = .ok n) :
    (readJournal disk.journal).failure = none ∧
      (∀ e ∈ (readJournal disk.journal).entries, e.term ≤ n.raft.currentTerm) ∧
      (∀ snap, disk.snap = some snap → n.raft.commitIndex = snap.index) ∧
      (disk.snap = none → SingleNode cfg ∨ (readJournal disk.journal).entries = [] →
        n.raft.commitIndex = n.raft.lastApplied) := by
  unfold openOn at opened
  split at opened
  · cases opened
  · rename_i raft recovered
    cases opened
    obtain ⟨hasID, hasDir, decodable⟩ := (Raft.openRaft_isOk_iff _ _ _).mp ⟨raft, recovered⟩
    simp only [Raft.openRaft, Raft.recover, hasID, hasDir, decodable, if_false,
      Except.ok.injEq] at recovered
    -- the bootstrap branch only raises a term of zero
    have bootstrapped (r : Raft) : r.currentTerm ≤ (r.bootstrapTerm cfg).currentTerm ∧
        (r.bootstrapTerm cfg).commitIndex = r.commitIndex ∧
        (r.bootstrapTerm cfg).lastApplied = r.lastApplied := by
      unfold Raft.bootstrapTerm
      split
      · rename_i zero
        exact ⟨by rw [zero.2]; exact Nat.zero_le _, rfl, rfl⟩
      · exact ⟨Nat.le_refl _, rfl, rfl⟩
    subst recovered
    obtain ⟨termGrows, sameCommit, sameApplied⟩ := bootstrapped
      (((readJournal disk.journal).entries.foldl Raft.recoverEntry (Raft.fresh cfg)).loadSnapshot
        disk.snap)
    obtain ⟨_, above⟩ := Raft.foldl_recoverEntry_term (Raft.fresh cfg)
      (readJournal disk.journal).entries
    refine ⟨decodable, ?_, ?_, ?_⟩
    · intro e member
      refine Nat.le_trans (above e member) ?_
      cases snapshot : disk.snap with
      | none =>
          rw [snapshot] at termGrows
          exact termGrows
      | some snap =>
          rw [snapshot] at termGrows
          exact termGrows
    · intro snap stored
      change (Raft.bootstrapTerm _ cfg).commitIndex = snap.index
      rw [sameCommit, stored]
      rfl
    · intro none commits
      change (Raft.bootstrapTerm _ cfg).commitIndex = (Raft.bootstrapTerm _ cfg).lastApplied
      rw [sameCommit, sameApplied, none]
      rcases commits with single | nothing
      · exact Raft.foldl_recoverEntry_commit
          (show (Raft.fresh cfg).peers.length = 1 from single) rfl _
      · rw [nothing]
        rfl

theorem termOrdered_openOn {cfg : Config} {disk : Disk} {n : Node}
    (ordered : (wholeEntries disk.journal).Pairwise fun earlier later =>
      earlier.term ≤ later.term)
    (opened : openOn cfg disk = .ok n) : n.TermOrdered := by
  obtain ⟨_, sameDisk, recovered⟩ := recovered_of_openOn opened
  obtain ⟨decodable, reached, _, _⟩ := marks_of_openOn opened
  have whole := entries_of_decodable decodable
  rw [whole] at reached
  have log : n.raft.log = wholeEntries disk.journal := recovered.log.trans whole
  unfold TermOrdered
  rw [log, sameDisk]
  exact ⟨⟨ordered, reached⟩, ⟨ordered, reached⟩⟩

theorem termOrdered_of_step {n next : Node} {op : Op} (ordered : n.TermOrdered)
    (stepped : n.step op = some next) : next.TermOrdered := by
  obtain ⟨reply, transition⟩ := transition_of_step stepped
  cases transition with
  | get | list | mismatch => exact ordered
  | failed request submitted => exact termOrdered_submitted ordered submitted
  | acknowledged request submitted => exact termOrdered_submitted ordered submitted
  | snapshot outcome => exact termOrdered_snapshot ordered outcome
  | electionTimeout =>
      exact ⟨ordered.1.mono (Nat.le_succ _), ordered.2.mono (Nat.le_succ _)⟩
  | reopen opened => exact termOrdered_openOn ordered.2.1 opened

/-! ## Indices under a condition on writes and restarts -/

/-- The number of the next entry follows the last one, and on a single peer it
will not set `commitIndex` below `lastApplied`. -/
def AppendsInOrder (n : Node) : Prop :=
  (∀ e ∈ n.raft.log.getLast?, e.index = n.raft.log.length) ∧
    (n.raft.peers.length = 1 → n.raft.lastApplied ≤ n.raft.log.length + 1)

/-- The journaled entries are numbered consecutively, from one or after the
snapshot, and without a snapshot they will be committed as they are applied. -/
def RestartsInOrder (cfg : Config) (disk : Disk) : Prop :=
  (NumberedAfter 0 (readJournal disk.journal).entries ∨
      NumberedAfter disk.snapIndex (readJournal disk.journal).entries) ∧
    (disk.snap.isNone → SingleNode cfg ∨ (readJournal disk.journal).entries = [])

/-- The condition on the steps of a run. -/
def InOrder (n : Node) : Op → Prop
  | .put .. | .delete .. | .compareAndSwap .. => n.AppendsInOrder
  | .reopen => RestartsInOrder n.cfg n.disk
  | .get _ | .list _ | .snapshot _ | .electionTimeout => True

/-- The part of the invariant on indices that the steps carry along. -/
structure Tracked (n : Node) : Prop where
  indices : NumberedAfter 0 n.raft.log ∨
    NumberedAfter n.disk.snapIndex n.raft.log ∧ n.raft.st.version = n.disk.snapIndex
  applied : n.raft.lastApplied ≤ n.raft.commitIndex
  known : n.raft.commitIndex ≤ max n.raft.lastIndex n.disk.snapIndex
  -- what the next snapshot will record
  revised : n.raft.commitIndex ≤ max n.raft.lastIndex n.raft.st.version

theorem numbered_of_appendsInOrder {n : Node} (tracked : n.Tracked)
    (inOrder : n.AppendsInOrder) : NumberedAfter 0 n.raft.log := by
  rcases tracked.indices with numbered | ⟨numbered, _⟩
  · exact numbered
  · intro i inLog
    -- the last entry fixes where the numbering starts
    have last : n.raft.log.length - 1 < n.raft.log.length := by omega
    have lastEntry : n.raft.log.getLast? = some (n.raft.log[n.raft.log.length - 1]) := by
      rw [List.getLast?_eq_getElem?, List.getElem?_eq_getElem last]
    have byOrder := inOrder.1 _ (Option.mem_def.mpr lastEntry)
    have byNumber := numbered _ last
    have here := numbered i inLog
    omega

theorem version_apply (s : Store) (e : LogEntry) : (s.apply e).version = s.version + 1 := by
  unfold Store.apply
  cases e.op with
  | put => rfl
  | del => rfl

theorem version_applyCore (c : Store × Nat) (e : LogEntry) :
    c.1.version ≤ (Raft.applyCore c e).1.version := by
  unfold Raft.applyCore
  split
  · exact Nat.le_refl _
  · rw [version_apply]
    exact Nat.le_succ _

theorem tracked_leaves {n : Node} (tracked : n.Tracked) (inOrder : n.AppendsInOrder)
    (e : LogEntry) (lines : List JournalLine) : (n.leaves e lines).Tracked := by
  have numbered := numbered_of_appendsInOrder tracked inOrder
  have before := Raft.lastIndex_of_numbered numbered
  have after : (n.leaves e lines).raft.lastIndex = n.raft.log.length + 1 :=
    Raft.lastIndex_concat (Raft.logged_log n.raft e)
  refine ⟨Or.inl (numbered.concat (by simp)), tracked.applied, ?_, ?_⟩
  · have known := tracked.known
    rw [after]
    change n.raft.commitIndex ≤ max _ n.disk.snapIndex
    omega
  · have revised := tracked.revised
    rw [after]
    change n.raft.commitIndex ≤ max _ n.raft.st.version
    omega

/-- The commit index that `replicate` sets. -/
theorem commitIndex_replicate {n : Node} {e : LogEntry} {answered : List String}
    (accepted : (n.replicate e answered).1 = none) :
    (n.replicate e answered).2.raft.commitIndex =
      if n.raft.peers.length = 1 then e.index else max n.raft.commitIndex e.index := by
  unfold replicate at accepted ⊢
  by_cases single : n.raft.peers.length = 1
  · rw [if_pos single, if_pos single]
    exact (Raft.applyLocked_marks (n.raft.setCommit e.index) e).1
  · rw [if_neg single] at accepted ⊢
    rw [if_neg single]
    split at accepted
    · cases accepted
    · rename_i enough
      rw [if_neg enough]
      refine (Raft.applyLocked_marks (n.raft.setCommit _) e).1.trans ?_
      change (if n.raft.commitIndex < e.index then e.index else n.raft.commitIndex) = _
      split <;> omega

/-- The commit index of an acknowledged entry. -/
theorem commitIndex_submit {n : Node} {e : LogEntry} {env : WriteEnv}
    (accepted : (n.submit e env).1 = none) :
    (n.submit e env).2.raft.commitIndex =
      if n.raft.peers.length = 1 then n.raft.log.length + 1
      else max n.raft.commitIndex (n.raft.log.length + 1) := by
  rw [submit_eq] at accepted ⊢
  split at accepted
  · cases accepted
  · rename_i opened
    rw [if_neg opened]
    split at accepted
    · rename_i written
      rw [if_pos written]
      exact commitIndex_replicate accepted
    · cases accepted

theorem tracked_accepts {n : Node} (tracked : n.Tracked) (inOrder : n.AppendsInOrder)
    (e : LogEntry) {commitIndex : Nat}
    (committed : commitIndex = if n.raft.peers.length = 1 then n.raft.log.length + 1
      else max n.raft.commitIndex (n.raft.log.length + 1)) :
    (n.accepts e commitIndex).Tracked := by
  have numbered := numbered_of_appendsInOrder tracked inOrder
  have log := (accepts_frame n e commitIndex).1
  have before := Raft.lastIndex_of_numbered numbered
  have after : (n.accepts e commitIndex).raft.lastIndex = n.raft.log.length + 1 :=
    Raft.lastIndex_concat log
  have sameCommit : (n.accepts e commitIndex).raft.commitIndex = commitIndex :=
    (Raft.applyLocked_marks ((n.raft.logged e).setCommit commitIndex) _).1
  have sameSnap : (n.accepts e commitIndex).disk.snapIndex = n.disk.snapIndex := rfl
  have core := accepts_core n e commitIndex
  have version : n.raft.st.version ≤ (n.accepts e commitIndex).raft.st.version := by
    have grows := version_applyCore n.raft.core (n.raft.number e)
    rw [← core] at grows
    exact grows
  have appliedCases : (n.accepts e commitIndex).raft.lastApplied = n.raft.lastApplied ∨
      (n.accepts e commitIndex).raft.lastApplied = n.raft.log.length + 1 := by
    have marked := congrArg Prod.snd core
    unfold Raft.applyCore at marked
    split at marked
    · exact Or.inl marked
    · exact Or.inr marked
  have applied := tracked.applied
  have known := tracked.known
  have revised := tracked.revised
  have appliedBefore : commitIndex = n.raft.log.length + 1 ∧
        n.raft.lastApplied ≤ n.raft.log.length + 1 ∨
      commitIndex = max n.raft.commitIndex (n.raft.log.length + 1) := by
    split at committed
    · rename_i single
      exact Or.inl ⟨committed, inOrder.2 single⟩
    · exact Or.inr committed
  refine ⟨Or.inl ?_, ?_, ?_, ?_⟩
  · rw [log]
    exact numbered.concat (by simp)
  · rw [sameCommit]
    omega
  · rw [sameCommit, after, sameSnap]
    omega
  · rw [sameCommit, after]
    omega

theorem tracked_submit {n : Node} (tracked : n.Tracked) (inOrder : n.AppendsInOrder)
    (e : LogEntry) (env : WriteEnv) : (n.submit e env).2.Tracked := by
  have committed := @commitIndex_submit n e env
  have submitted := submitted_submit n e env
  generalize n.submit e env = result at committed submitted
  obtain ⟨err, next⟩ := result
  cases submitted with
  | journalClosed => exact tracked_leaves tracked inOrder e _
  | journalFailed => exact tracked_leaves tracked inOrder e _
  | timedOut => exact tracked_leaves tracked inOrder e _
  | acknowledged opened written quorum commitIndex =>
      refine tracked_accepts tracked inOrder e ?_
      rw [← committed rfl]
      exact (Raft.applyLocked_marks ((n.raft.logged e).setCommit commitIndex) _).1.symm

theorem tracked_snapshot {n : Node} (tracked : n.Tracked) (outcome : SnapshotOutcome) :
    (n.snapshot outcome).2.Tracked := by
  obtain ⟨opened, raft⟩ := snapshot_raft n outcome
  have snapCases : (n.snapshot outcome).2.disk.snapIndex = n.disk.snapIndex ∨
      (n.snapshot outcome).2.disk.snapIndex = n.raft.st.version := by
    unfold Disk.snapIndex
    rcases (snapshotted_snapshot n outcome).disk with ⟨same, _⟩ | ⟨taken, _⟩
    · rw [same]
      exact Or.inl rfl
    · rw [taken]
      exact Or.inr rfl
  rcases snapCases with same | taken
  · refine ⟨?_, ?_, ?_, ?_⟩
    · rw [raft, same]
      exact tracked.indices
    · rw [raft]
      exact tracked.applied
    · rw [raft, same]
      exact tracked.known
    · rw [raft]
      exact tracked.revised
  · refine ⟨?_, ?_, ?_, ?_⟩
    · rw [raft, taken]
      rcases tracked.indices with fromOne | ⟨fromSnap, version⟩
      · exact Or.inl fromOne
      · rw [← version] at fromSnap
        exact Or.inr ⟨fromSnap, rfl⟩
    · rw [raft]
      exact tracked.applied
    · rw [raft, taken]
      exact tracked.revised
    · rw [raft]
      exact tracked.revised

/-- Recovery from the journal alone applies nothing beyond its last entry. -/
theorem lastApplied_of_journal {n : Node} {entries : List LogEntry}
    (log : n.raft.log = entries) (numbered : NumberedAfter 0 entries)
    (applied : n.raft.lastApplied = (entries.foldl Raft.applyCore (.empty, 0)).2) :
    n.raft.lastApplied ≤ n.raft.lastIndex := by
  have numberedLog : NumberedAfter 0 n.raft.log := by rwa [log]
  rw [Raft.lastIndex_of_numbered numberedLog, applied, log]
  obtain ⟨_, _, attained⟩ := Raft.foldl_applyCore_index (.empty, 0) entries
  rcases attained with untouched | ⟨e, member, last⟩
  · rw [untouched]
    exact Nat.zero_le _
  · rw [← last]
    exact Nat.le_trans (numbered.index_le member) (by omega)

theorem tracked_openOn {cfg : Config} {disk : Disk} {n : Node}
    (inOrder : RestartsInOrder cfg disk) (opened : openOn cfg disk = .ok n) : n.Tracked := by
  obtain ⟨_, sameDisk, recovered⟩ := recovered_of_openOn opened
  obtain ⟨_, _, fromSnapshot, fromJournal⟩ := marks_of_openOn opened
  have core := recovered.core
  obtain ⟨numbered, commits⟩ := inOrder
  cases snapshot : disk.snap with
  | some snap =>
      have index := Disk.snapIndex_of_some snapshot
      rw [snapshot] at core
      have applied : n.raft.lastApplied = snap.index := congrArg Prod.snd core
      have version : n.raft.st.version = snap.index :=
        congrArg (fun held => held.1.version) core
      have committed := fromSnapshot snap snapshot
      refine ⟨?_, ?_, ?_, ?_⟩
      · rw [recovered.log, sameDisk]
        rcases numbered with fromOne | fromSnap
        · exact Or.inl fromOne
        · exact Or.inr ⟨fromSnap, version.trans index.symm⟩
      · rw [applied, committed]
      · rw [committed, sameDisk, index]
        exact Nat.le_max_right _ _
      · rw [committed, version]
        exact Nat.le_max_right _ _
  | none =>
      rw [Disk.snapIndex_of_none snapshot, or_self] at numbered
      rw [snapshot] at core
      have appliedLe := lastApplied_of_journal recovered.log numbered (congrArg Prod.snd core)
      have committed : n.raft.commitIndex = n.raft.lastApplied :=
        fromJournal snapshot (commits (by rw [snapshot]; rfl))
      refine ⟨Or.inl (by rwa [recovered.log]), Nat.le_of_eq committed.symm, ?_, ?_⟩
      · rw [committed]
        exact Nat.le_trans appliedLe (Nat.le_max_left _ _)
      · rw [committed]
        exact Nat.le_trans appliedLe (Nat.le_max_left _ _)

theorem tracked_of_step {n next : Node} {op : Op} (tracked : n.Tracked)
    (inOrder : n.InOrder op) (stepped : n.step op = some next) : next.Tracked := by
  obtain ⟨reply, transition⟩ := transition_of_step stepped
  have written {e : LogEntry} {env : WriteEnv} (request : op.request n = some (e, env)) :
      next.Tracked := by
    have appends : n.AppendsInOrder := by
      cases op with
      | put | delete | compareAndSwap => exact inOrder
      | get | list | snapshot | electionTimeout | reopen => cases request
    have reacted := congrArg Prod.snd (react_of_request request)
    rw [← Option.some.inj (reacted.symm.trans stepped)]
    exact tracked_submit tracked appends e env
  cases transition with
  | get | list | mismatch => exact tracked
  | failed request => exact written request
  | acknowledged request => exact written request
  | snapshot outcome => exact tracked_snapshot tracked outcome
  | electionTimeout => exact ⟨tracked.indices, tracked.applied, tracked.known, tracked.revised⟩
  | reopen opened => exact tracked_openOn inOrder opened

theorem logInvariant_of_tracked {n : Node} (tracked : n.Tracked) (ordered : n.TermOrdered) :
    n.LogInvariant where
  indices := tracked.indices.imp_right And.left
  terms := ordered.1.1
  applied := tracked.applied
  committed := tracked.known

/-- In every run the terms of the log are ordered, and in a run whose writes and
restarts are in order the whole representation invariant holds. -/
theorem log_invariant_of_inOrder {cfg : Config} {start n : Node} {ops : List Op}
    (started : Started cfg start) (reached : execute step start ops = some n) :
    (n.raft.log.Pairwise fun earlier later => earlier.term ≤ later.term) ∧
      (Guarded step InOrder start ops → n.LogInvariant) := by
  have ordered : n.TermOrdered :=
    invariant_of_execute step TermOrdered (fun _ _ _ => termOrdered_of_step)
      (termOrdered_openOn List.Pairwise.nil started) reached
  refine ⟨ordered.1.1, ?_⟩
  intro inOrder
  have startInOrder : RestartsInOrder cfg .empty :=
    ⟨Or.inl (numberedAfter_nil 0), fun _ => Or.inr rfl⟩
  have tracked : n.Tracked :=
    invariant_of_guarded step Tracked (fun _ _ _ => tracked_of_step)
      (tracked_openOn startInOrder started) inOrder reached
  exact logInvariant_of_tracked tracked ordered

instance (n : Node) : Decidable n.AppendsInOrder :=
  inferInstanceAs (Decidable (_ ∧ _))

instance (cfg : Config) (disk : Disk) : Decidable (RestartsInOrder cfg disk) :=
  inferInstanceAs (Decidable ((_ ∨ _) ∧
    (disk.snap.isNone = true → (Raft.peersOf cfg).length = 1 ∨ _)))

instance (n : Node) (op : Op) : Decidable (n.InOrder op) :=
  match op with
  | .put .. | .delete .. | .compareAndSwap .. => inferInstanceAs (Decidable n.AppendsInOrder)
  | .reopen => inferInstanceAs (Decidable (RestartsInOrder n.cfg n.disk))
  | .get _ | .list _ | .snapshot _ | .electionTimeout => inferInstanceAs (Decidable True)

/-- Two writes around a snapshot, a failed one, and a restart. -/
def orderedRun : List Op :=
  [.put "a" [1] ⟨.ok, []⟩, .snapshot .ok, .put "b" [2] ⟨.ok, []⟩, .electionTimeout,
    .put "c" [3] ⟨.lost, []⟩, .reopen]

theorem log_invariant_after_snapshot :
    ∃ n, execute step testNode orderedRun = some n ∧ n.raft.log.length = 1 ∧
      n.LogInvariant := by
  obtain ⟨n, reached, logged⟩ := exists_of_execute_test step testNode orderedRun
    (fun n => n.raft.log.length = 1) (by decide)
  exact ⟨n, reached, logged, (log_invariant_of_inOrder testNode_started reached).2
    (guarded_of_check step (by decide))⟩

/-- A restart of a node with peers applies an entry without committing it, and a
write after a snapshot and a restart takes the commit index back. -/
theorem applied_ahead_of_commit :
    (Started clusterConfig clusterNode ∧
      ∃ n, execute step clusterNode [.put "a" [1] ⟨.ok, ["n2"]⟩, .reopen] = some n ∧
        n.raft.commitIndex < n.raft.lastApplied) ∧
    (Started testConfig testNode ∧
      ∃ n, execute step testNode [.put "a" [1] ⟨.ok, []⟩, .put "b" [2] ⟨.ok, []⟩,
          .snapshot .ok, .reopen, .put "c" [3] ⟨.ok, []⟩] = some n ∧
        n.raft.commitIndex < n.raft.lastApplied) :=
  ⟨⟨clusterNode_started, exists_of_execute_test step _ _ _ (by decide)⟩,
    ⟨testNode_started, exists_of_execute_test step _ _ _ (by decide)⟩⟩

end Node

end MiniCloud.Db
