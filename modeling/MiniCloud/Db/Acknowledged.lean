import MiniCloud.Db.Transitions

/-!
# Acknowledged writes take effect

`append` numbers an entry by the length of the log, and `applyLocked` drops an
entry whose index is not above `lastApplied`.  A write is therefore lost in
silence exactly when `lastApplied` has run ahead of the log.  Inside one process
this never happens; a restart rebuilds the log from the journal alone and takes
`lastApplied` from the snapshot or from the largest journaled index, and the two
agree only when the journal still holds that many lines.
-/

namespace MiniCloud.Db

open MiniCloud.Library

/-- The journal holds at least as many lines as the index that a restart will
take for applied. -/
def Disk.Covers (disk : Disk) : Prop :=
  match disk.snap with
  | some snap => snap.index ≤ (readJournal disk.journal).entries.length
  | none => ∀ e ∈ (readJournal disk.journal).entries,
      e.index ≤ (readJournal disk.journal).entries.length

/-- The entry that an applied operation leaves under its key. -/
def LogEntry.stored (e : LogEntry) : Option Entry :=
  match e.op with
  | .put => some ⟨e.key, e.value, e.version, false⟩
  | .del => none

theorem Store.get_apply_self (s : Store) (e : LogEntry) : (s.apply e).get e.key = e.stored := by
  unfold Store.apply LogEntry.stored
  cases e.op with
  | put => exact EntryMap.lookup_insert_self s.entries ⟨e.key, e.value, e.version, false⟩
  | del => exact EntryMap.lookup_erase_self s.entries e.key

theorem Store.get_apply_ne (s : Store) {e : LogEntry} {key : String} (other : key ≠ e.key) :
    (s.apply e).get key = s.get key := by
  unfold Store.apply
  cases e.op with
  | put => exact EntryMap.lookup_insert_ne s.entries other
  | del => exact EntryMap.lookup_erase_ne s.entries other

namespace Raft

/-- The next entry will not be taken for an old one. -/
def Ready (r : Raft) : Prop := r.lastApplied ≤ r.log.length

theorem core_index_le_iff (entries : List LogEntry) (snap : Option RaftSnapshot)
    (journal : List JournalLine) (tmp : Option RaftSnapshot)
    (read : (readJournal journal).entries = entries) :
    (recoveredCore entries snap).2 ≤ entries.length ↔ Disk.Covers ⟨journal, tmp, snap⟩ := by
  cases snap with
  | some snap =>
      unfold Disk.Covers recoveredCore
      rw [read]
  | none =>
      unfold Disk.Covers recoveredCore
      simp only [read]
      obtain ⟨_, bounds, attained⟩ := foldl_applyCore_index (.empty, 0) entries
      constructor
      · intro covered e member
        exact Nat.le_trans (bounds e member) covered
      · intro covered
        rcases attained with untouched | ⟨e, member, last⟩
        · rw [untouched]
          exact Nat.zero_le _
        · rw [← last]
          exact covered e member

end Raft

namespace Node

/-- A restart leaves the node ready exactly when the directory covers its index. -/
theorem ready_openOn_iff {cfg : Config} {disk : Disk} {n : Node}
    (opened : openOn cfg disk = .ok n) : n.raft.Ready ↔ disk.Covers := by
  obtain ⟨_, _, recovered⟩ := recovered_of_openOn opened
  have applied : n.raft.lastApplied =
      (Raft.recoveredCore (readJournal disk.journal).entries disk.snap).2 :=
    congrArg Prod.snd recovered.core
  unfold Raft.Ready
  rw [applied, recovered.log]
  exact Raft.core_index_le_iff _ disk.snap disk.journal disk.snapTmp rfl

theorem accepts_st_of_ready {n : Node} (ready : n.raft.Ready) (e : LogEntry)
    (commitIndex : Nat) :
    (n.accepts e commitIndex).raft.core =
      (n.raft.st.apply (n.raft.number e), n.raft.log.length + 1) := by
  rw [accepts_core]
  have ahead : ¬ (n.raft.number e).index ≤ n.raft.lastApplied :=
    Nat.not_le.mpr (Nat.lt_succ_of_le ready)
  exact if_neg ahead

theorem accepts_st_of_not_ready {n : Node} (behind : ¬ n.raft.Ready) (e : LogEntry)
    (commitIndex : Nat) : (n.accepts e commitIndex).raft.core = n.raft.core := by
  rw [accepts_core]
  have passed : (n.raft.number e).index ≤ n.raft.lastApplied :=
    Nat.succ_le_of_lt (Nat.lt_of_not_le behind)
  exact if_pos passed

theorem ready_logged {r : Raft} (ready : r.Ready) (e : LogEntry) : (r.logged e).Ready := by
  unfold Raft.Ready
  rw [Raft.logged_log, List.length_append]
  exact Nat.le_trans ready (Nat.le_add_right _ _)

theorem ready_accepts {n : Node} (ready : n.raft.Ready) (e : LogEntry) (commitIndex : Nat) :
    (n.accepts e commitIndex).raft.Ready := by
  have applied : (n.accepts e commitIndex).raft.lastApplied = n.raft.log.length + 1 :=
    congrArg Prod.snd (accepts_st_of_ready ready e commitIndex)
  unfold Raft.Ready
  rw [applied, (accepts_frame n e commitIndex).1, List.length_append]
  exact Nat.le_refl _

/-- Every step except a restart keeps the node ready. -/
theorem ready_of_transition {n next : Node} {op : Op} {reply : Reply}
    (ready : n.raft.Ready) (covers : op = .reopen → n.disk.Covers)
    (transition : Transition n op reply next) : next.raft.Ready := by
  cases transition with
  | get => exact ready
  | list => exact ready
  | mismatch => exact ready
  | failed request submitted => cases submitted <;> exact ready_logged ready _
  | acknowledged request submitted =>
      cases submitted with
      | acknowledged opened written quorum commitIndex => exact ready_accepts ready _ commitIndex
  | snapshot outcome =>
      have taken := snapshotted_snapshot n outcome
      have applied : (n.snapshot outcome).2.raft.lastApplied = n.raft.lastApplied :=
        congrArg Prod.snd taken.core
      unfold Raft.Ready
      rw [applied, taken.log]
      exact ready
  | electionTimeout => exact ready
  | reopen opened => exact (ready_openOn_iff opened).mpr (covers rfl)

/-! ## Acknowledged writes -/

/-- Every write that the node answers without an error is seen by the next `Get`. -/
structure AcksTakeEffect (n : Node) : Prop where
  put : ∀ key value env found next, n.put key value env = (.entry found, next) →
    next.get key = .entry (some ⟨key, value, n.raft.nextVersion key, false⟩)
  compareAndSwap : ∀ key value expect env found next,
    n.compareAndSwap key value expect env = (.entry found, next) →
      next.get key = .entry (some ⟨key, value, expect + 1, false⟩)
  delete : ∀ key env next, n.delete key env = (.done, next) →
    next.get key = .failed .notFound

/-- An answer without an error means that the entry was accepted. -/
theorem accepted_of_replyTo {n : Node} {e : LogEntry} {env : WriteEnv}
    (noError : ∀ err, replyTo e (n.submit e env) ≠ .failed err) :
    ∃ commitIndex, (n.submit e env).2 = n.accepts e commitIndex := by
  have submitted := submitted_submit n e env
  unfold replyTo at noError
  cases outcome : (n.submit e env).1 with
  | some err =>
      rw [outcome] at noError
      exact absurd rfl (noError err)
  | none =>
      rw [outcome] at submitted
      generalize (n.submit e env).2 = next at submitted
      cases submitted with
      | acknowledged opened written quorum commitIndex => exact ⟨commitIndex, rfl⟩

theorem get_of_accepted {n next : Node} (ready : n.raft.Ready) {e : LogEntry}
    {commitIndex : Nat} (accepted : next = n.accepts e commitIndex) :
    next.raft.st.get e.key = e.stored := by
  have core := congrArg Prod.fst (accepts_st_of_ready ready e commitIndex)
  rw [accepted]
  change (n.accepts e commitIndex).raft.st = _ at core
  rw [core]
  exact Store.get_apply_self n.raft.st (n.raft.number e)

/-- After an answer without an error, the key of the entry has its effect. -/
theorem get_of_replyTo {n : Node} (ready : n.raft.Ready) {e : LogEntry} {env : WriteEnv}
    (noError : ∀ err, replyTo e (n.submit e env) ≠ .failed err) :
    (n.submit e env).2.raft.st.get e.key = e.stored := by
  obtain ⟨commitIndex, accepted⟩ := accepted_of_replyTo noError
  exact get_of_accepted ready accepted

theorem checkVersion_eq_some {r : Raft} {key : String} {expect version : Nat}
    (checked : r.checkVersion key expect = some version) : version = expect + 1 := by
  unfold Raft.checkVersion at checked
  split at checked
  · split at checked
    · cases checked
    · exact (Option.some.inj checked).symm
  · split at checked
    · cases checked
    · rename_i zero
      have expectZero : expect = 0 := by simpa using zero
      rw [← Option.some.inj checked, expectZero]

/-- A ready node honours every acknowledgement. -/
theorem acksTakeEffect_of_ready {n : Node} (ready : n.raft.Ready) : n.AcksTakeEffect := by
  refine ⟨?_, ?_, ?_⟩
  · intro key value env found next answered
    rw [put_eq] at answered
    obtain ⟨replied, rfl⟩ := Prod.mk.inj answered
    have stored := get_of_replyTo ready (by rw [replied]; simp)
    simp only [LogEntry.stored] at stored
    simp only [get, stored]
  · intro key value expect env found next answered
    cases checked : n.raft.checkVersion key expect with
    | none =>
        simp only [Node.compareAndSwap, checked] at answered
        cases (Prod.mk.inj answered).1
    | some version =>
        rw [compareAndSwap_eq checked] at answered
        obtain ⟨replied, rfl⟩ := Prod.mk.inj answered
        have stored := get_of_replyTo ready (by rw [replied]; simp)
        simp only [LogEntry.stored] at stored
        rw [checkVersion_eq_some checked] at stored
        simp only [get, checkVersion_eq_some checked, stored]
  · intro key env next answered
    rw [delete_eq] at answered
    obtain ⟨replied, rfl⟩ := Prod.mk.inj answered
    have stored := get_of_replyTo ready (by rw [replied]; simp)
    simp only [LogEntry.stored] at stored
    simp only [get, stored]

theorem submit_ok {n : Node} (single : n.raft.peers.length = 1)
    (opened : n.raft.journalOpen = true) (e : LogEntry) {env : WriteEnv}
    (written : env.write = .ok) :
    n.submit e env = (none, n.accepts e (n.raft.log.length + 1)) := by
  have singleLeft : (n.leaves e [.whole (n.raft.number e)]).raft.peers.length = 1 := single
  rw [submit_eq, if_neg (by simp [opened]), if_pos written, replicate, if_pos singleLeft]
  rfl

/-- A single node that is not ready acknowledges a put and drops it. -/
theorem not_acksTakeEffect {n : Node} (single : n.raft.peers.length = 1)
    (opened : n.raft.journalOpen = true) (behind : ¬ n.raft.Ready) : ¬ n.AcksTakeEffect := by
  intro honoured
  have unchanged : (n.accepts ⟨0, 0, .put, "", [], n.raft.nextVersion ""⟩
      (n.raft.log.length + 1)).raft.st = n.raft.st :=
    congrArg Prod.fst (accepts_st_of_not_ready behind _ _)
  have seen := honoured.put "" [] ⟨.ok, []⟩ _ _ (by
    rw [put_eq, submit_ok single opened _ rfl]
    rfl)
  simp only [get, unchanged] at seen
  cases stored : n.raft.st.get "" with
  | none => simp [stored] at seen
  | some cur =>
      -- the stored version would have to be its own successor
      have version : n.raft.nextVersion "" = cur.version + 1 := by
        unfold Raft.nextVersion
        rw [show n.raft.st.entries.lookup "" = some cur from stored]
      simp only [stored, Reply.entry.injEq, Option.some.injEq] at seen
      have same := congrArg Entry.version seen
      simp only [version] at same
      exact absurd same (Nat.ne_of_lt (Nat.lt_succ_self _))

theorem cfg_of_run {cfg : Config} {start n : Node} {ops : List Op}
    (started : Started cfg start) (reached : execute step start ops = some n) :
    n.cfg = cfg := by
  refine invariant_of_execute step (fun n => n.cfg = cfg) ?_ (recovered_of_openOn started).1
    reached
  intro state op next sameCfg stepped
  obtain ⟨reply, transition⟩ := transition_of_step stepped
  cases transition with
  | get => exact sameCfg
  | list => exact sameCfg
  | mismatch => exact sameCfg
  | failed request submitted => cases submitted <;> exact sameCfg
  | acknowledged request submitted =>
      cases submitted with
      | acknowledged => exact sameCfg
  | snapshot outcome => exact (snapshotted_snapshot state outcome).cfg.trans sameCfg
  | electionTimeout => exact sameCfg
  | reopen opened => exact (recovered_of_openOn opened).1.trans sameCfg

/-- In every run of a single node whose restarts find a journal that covers the
applied index, each acknowledged write takes effect, whatever writes failed and
whatever snapshots were taken.  After any run, a restart keeps that promise
exactly when the journal covers the index. -/
theorem acknowledged_writes_take_effect {cfg : Config} {start : Node}
    (single : SingleNode cfg) (started : Started cfg start) :
    (∀ ops n, Guarded step (fun n op => op = .reopen → n.disk.Covers) start ops →
      execute step start ops = some n → n.AcksTakeEffect) ∧
    ∀ ops n next, execute step start ops = some n → n.reopen = .ok next →
      (next.AcksTakeEffect ↔ n.disk.Covers) := by
  constructor
  · intro ops n covered reached
    have startReady : start.raft.Ready := by
      refine (ready_openOn_iff started).mpr ?_
      intro e member
      cases member
    refine acksTakeEffect_of_ready (invariant_of_guarded step (fun n => n.raft.Ready) ?_
      startReady covered reached)
    intro state op next ready covers stepped
    obtain ⟨reply, transition⟩ := transition_of_step stepped
    exact ready_of_transition ready covers transition
  · intro ops n next reached reopened
    have recovered := (recovered_of_openOn reopened).2.2
    rw [cfg_of_run started reached] at recovered
    constructor
    · intro honoured
      by_contra uncovered
      refine not_acksTakeEffect ?_ recovered.journalOpen ?_ honoured
      · rw [recovered.peers]
        exact single
      · exact fun ready => uncovered ((ready_openOn_iff reopened).mp ready)
    · intro covers
      exact acksTakeEffect_of_ready ((ready_openOn_iff reopened).mpr covers)

theorem acknowledged_writes_take_effect_after_restart :
    ∃ n, execute step testNode [.put "a" [1] ⟨.ok, []⟩, .reopen] = some n ∧
      n.AcksTakeEffect := by
  have single : SingleNode testConfig := rfl
  refine ⟨_, rfl, (acknowledged_writes_take_effect single testNode_started).1
    [.put "a" [1] ⟨.ok, []⟩, .reopen] _ ⟨by simp, fun next stepped => ⟨?_, by simp [Guarded]⟩⟩ rfl⟩
  cases Option.some.inj stepped
  intro _ e member
  cases List.mem_singleton.mp member
  exact Nat.le_refl 1

/-- One failed journal write, a restart, and the next put is acknowledged but
not stored. -/
theorem put_after_failed_write_dropped :
    ∃ n, execute step testNode [.put "a" [1] ⟨.lost, []⟩, .put "b" [2] ⟨.ok, []⟩, .reopen] =
        some n ∧
      (n.put "c" [3] ⟨.ok, []⟩).1 = .entry none ∧
      (n.put "c" [3] ⟨.ok, []⟩).2.get "c" = .failed .notFound ∧ ¬ n.AcksTakeEffect := by
  refine exists_of_tested step
    (fun n => (n.put "c" [3] ⟨.ok, []⟩).1 = .entry none ∧
      (n.put "c" [3] ⟨.ok, []⟩).2.get "c" = .failed .notFound) (by decide) ?_
  rintro n _ ⟨answered, missing⟩
  refine ⟨answered, missing, ?_⟩
  intro honoured
  have seen := honoured.put "c" [3] ⟨.ok, []⟩ none _ (Prod.ext answered rfl)
  rw [missing] at seen
  cases seen

end Node

end MiniCloud.Db
