import MiniCloud.Db.Node

/-!
# What one operation can do to a node

The part of the memory that `applyLocked` reads and writes is the store with
`lastApplied`; everything else in `raft` only travels along.  This module
isolates that core, states what opening a directory yields, and inverts the
reactive step: each operation either reads, is refused, leaves an unacknowledged
entry behind, is acknowledged, or belongs to a snapshot, a timer or a restart.
-/

namespace MiniCloud.Db

namespace Raft

/-! ## The core of the state machine -/

/-- The store and the index up to which it has been applied. -/
def core (r : Raft) : Store × Nat := (r.st, r.lastApplied)

/-- `applyLocked` on the core. -/
def applyCore (c : Store × Nat) (e : LogEntry) : Store × Nat :=
  if e.index ≤ c.2 then c else (c.1.apply e, e.index)

theorem core_applyLocked (r : Raft) (e : LogEntry) :
    (r.applyLocked e).core = applyCore r.core e := by
  unfold applyLocked markApplied applyCore core
  split
  · rename_i skipped
    split at skipped
    · rename_i passed
      simp [passed]
    · cases skipped
  · rename_i marked advanced
    split at advanced
    · cases advanced
    · rename_i ahead
      cases Option.some.inj advanced
      simp [ahead, updateStore, enqueue]

theorem core_recoverEntry (r : Raft) (e : LogEntry) :
    (r.recoverEntry e).core = applyCore r.core e :=
  core_applyLocked _ e

theorem core_foldl_recoverEntry (r : Raft) (entries : List LogEntry) :
    (entries.foldl recoverEntry r).core = entries.foldl applyCore r.core := by
  induction entries generalizing r with
  | nil => rfl
  | cons e rest ih =>
      rw [List.foldl_cons, List.foldl_cons, ih, core_recoverEntry]

/-- The applied index after a replay is an index of the replayed entries, or
the one it started from. -/
theorem foldl_applyCore_index (c : Store × Nat) (entries : List LogEntry) :
    c.2 ≤ (entries.foldl applyCore c).2 ∧
      (∀ e ∈ entries, e.index ≤ (entries.foldl applyCore c).2) ∧
      ((entries.foldl applyCore c).2 = c.2 ∨
        ∃ e ∈ entries, e.index = (entries.foldl applyCore c).2) := by
  induction entries generalizing c with
  | nil => simp
  | cons e rest ih =>
      obtain ⟨above, bounds, attained⟩ := ih (applyCore c e)
      rw [List.foldl_cons]
      have entryBound : c.2 ≤ (applyCore c e).2 ∧ e.index ≤ (applyCore c e).2 ∧
          ((applyCore c e).2 = c.2 ∨ (applyCore c e).2 = e.index) := by
        unfold applyCore
        split
        · rename_i passed
          exact ⟨Nat.le_refl _, passed, Or.inl rfl⟩
        · rename_i ahead
          exact ⟨Nat.le_of_lt (Nat.lt_of_not_le ahead), Nat.le_refl _, Or.inr rfl⟩
      obtain ⟨grows, entryLe, chosen⟩ := entryBound
      refine ⟨Nat.le_trans grows above, ?_, ?_⟩
      · intro other member
        rcases List.mem_cons.mp member with isHead | inRest
        · rw [isHead]
          exact Nat.le_trans entryLe above
        · exact bounds other inRest
      · rcases attained with same | ⟨other, inRest, same⟩
        · rcases chosen with unchanged | taken
          · exact Or.inl (same.trans unchanged)
          · exact Or.inr ⟨e, List.mem_cons_self, taken.symm.trans same.symm⟩
        · exact Or.inr ⟨other, List.mem_cons_of_mem _ inRest, same⟩

/-! ## Frame facts -/

/-- What `applyLocked` changes: the store, what is applied, and the events. -/
theorem applyLocked_changes (r : Raft) (e : LogEntry) :
    ∃ lastApplied st applyQueue applied, r.applyLocked e =
      { r with
        lastApplied := lastApplied
        st := st
        applyQueue := applyQueue
        applied := applied } := by
  unfold applyLocked
  split
  · exact ⟨_, _, _, _, rfl⟩
  · rename_i marked advanced
    unfold markApplied at advanced
    split at advanced
    · cases advanced
    · cases Option.some.inj advanced
      exact ⟨_, _, _, _, rfl⟩

/-- `applyLocked` touches neither the log, the peers nor the journal handle. -/
theorem applyLocked_frame (r : Raft) (e : LogEntry) :
    (r.applyLocked e).log = r.log ∧ (r.applyLocked e).peers = r.peers ∧
      (r.applyLocked e).journalOpen = r.journalOpen := by
  obtain ⟨_, _, _, _, changed⟩ := applyLocked_changes r e
  rw [changed]
  exact ⟨rfl, rfl, rfl⟩

theorem foldl_recoverEntry_frame (r : Raft) (entries : List LogEntry) :
    (entries.foldl recoverEntry r).log = r.log ++ entries ∧
      (entries.foldl recoverEntry r).peers = r.peers ∧
      (entries.foldl recoverEntry r).journalOpen = r.journalOpen := by
  induction entries generalizing r with
  | nil => simp
  | cons e rest ih =>
      obtain ⟨sameLog, samePeers, sameHandle⟩ := ih (r.recoverEntry e)
      obtain ⟨entryLog, entryPeers, entryHandle⟩ := applyLocked_frame
        { r with
          log := r.log ++ [e]
          currentTerm := if r.currentTerm < e.term then e.term else r.currentTerm
          commitIndex :=
            if r.commitIndex < e.index ∧ r.peers.length = 1 then e.index
            else r.commitIndex }
        e
      rw [List.foldl_cons]
      refine ⟨?_, samePeers.trans entryPeers, sameHandle.trans entryHandle⟩
      rw [sameLog]
      change (Raft.applyLocked _ e).log ++ rest = _
      rw [entryLog, List.append_assoc]
      rfl

/-! ## Opening -/

/-- The core that `recover` reaches: the snapshot wins over the replay. -/
def recoveredCore (entries : List LogEntry) : Option RaftSnapshot → Store × Nat
  | none => entries.foldl applyCore (.empty, 0)
  | some snap => (⟨snap.state, snap.index⟩, snap.index)

/-- Opening succeeds exactly on a decodable journal under a proper configuration. -/
theorem openRaft_isOk_iff (cfg : Config) (stream : JournalStream)
    (snap : Option RaftSnapshot) :
    (∃ r, openRaft cfg stream snap = .ok r) ↔
      cfg.nodeID ≠ "" ∧ cfg.dataDir ≠ "" ∧ stream.failure = none := by
  unfold openRaft recover
  by_cases noID : cfg.nodeID = ""
  · simp [noID]
  by_cases noDir : cfg.dataDir = ""
  · simp [noID, noDir]
  cases stream.failure with
  | none => simp [noID, noDir]
  | some err => simp [noID, noDir]

/-- What an opened node holds. -/
structure Recovered (cfg : Config) (entries : List LogEntry)
    (snap : Option RaftSnapshot) (r : Raft) : Prop where
  log : r.log = entries
  peers : r.peers = peersOf cfg
  journalOpen : r.journalOpen = true
  core : r.core = recoveredCore entries snap

theorem recovered_of_openRaft {cfg : Config} {stream : JournalStream}
    {snap : Option RaftSnapshot} {r : Raft} (opened : openRaft cfg stream snap = .ok r) :
    Recovered cfg stream.entries snap r := by
  obtain ⟨hasID, hasDir, decodable⟩ :=
    (openRaft_isOk_iff cfg stream snap).mp ⟨r, opened⟩
  simp only [openRaft, recover, hasID, hasDir, decodable, if_false, Except.ok.injEq]
    at opened
  obtain ⟨log, peers, journalOpen⟩ :=
    foldl_recoverEntry_frame (fresh cfg) stream.entries
  have core := core_foldl_recoverEntry (fresh cfg) stream.entries
  -- neither the bootstrap branch nor the snapshot touches log, peers or handle
  have bootstrapped (r : Raft) : (r.bootstrapTerm cfg).log = r.log ∧
      (r.bootstrapTerm cfg).peers = r.peers ∧
      (r.bootstrapTerm cfg).journalOpen = r.journalOpen ∧
      (r.bootstrapTerm cfg).core = r.core := by
    unfold bootstrapTerm
    split <;> exact ⟨rfl, rfl, rfl, rfl⟩
  subst opened
  obtain ⟨bootLog, bootPeers, bootHandle, bootCore⟩ := bootstrapped
    ((stream.entries.foldl recoverEntry (fresh cfg)).loadSnapshot snap)
  cases snap with
  | none =>
      exact ⟨bootLog.trans log, bootPeers.trans peers, bootHandle.trans journalOpen,
        bootCore.trans core⟩
  | some snap =>
      exact ⟨bootLog.trans log, bootPeers.trans peers, bootHandle.trans journalOpen,
        bootCore⟩

/-! ## Numbering an entry -/

/-- The entry as `append` journals it. -/
def number (r : Raft) (e : LogEntry) : LogEntry := (r.appendLog e).1

/-- The memory after the critical section of `append`. -/
def logged (r : Raft) (e : LogEntry) : Raft := (r.appendLog e).2

@[simp]
theorem number_index (r : Raft) (e : LogEntry) : (r.number e).index = r.log.length + 1 := rfl

@[simp]
theorem logged_log (r : Raft) (e : LogEntry) : (r.logged e).log = r.log ++ [r.number e] := rfl

end Raft

/-! ## Inverting one operation -/

/-- What a journal write leaves in the file. -/
def WriteOutcome.leaves (outcome : WriteOutcome) (e : LogEntry) : List JournalLine :=
  match outcome with
  | .lost => []
  | .torn => [.torn e]
  | .ok | .unsynced => [.whole e]

/-- The entry that an operation hands to `append`, with its environment. -/
def Op.request (n : Node) : Op → Option (LogEntry × WriteEnv)
  | .put key value env => some (⟨0, 0, .put, key, value, n.raft.nextVersion key⟩, env)
  | .delete key env => some (⟨0, 0, .del, key, [], 0⟩, env)
  | .compareAndSwap key value expect env =>
      (n.raft.checkVersion key expect).map fun version =>
        (⟨0, 0, .put, key, value, version⟩, env)
  | _ => none

namespace Node

/-- The node after an entry that was not acknowledged. -/
def leaves (n : Node) (e : LogEntry) (lines : List JournalLine) : Node :=
  ⟨n.cfg, n.raft.logged e, { n.disk with journal := n.disk.journal ++ lines }⟩

/-- The node after an acknowledged entry. -/
def accepts (n : Node) (e : LogEntry) (commitIndex : Nat) : Node :=
  ⟨n.cfg,
    (((n.raft.logged e).setCommit commitIndex).applyLocked (n.raft.number e)).applyFromQueue,
    { n.disk with journal := n.disk.journal ++ [.whole (n.raft.number e)] }⟩

theorem accepts_core (n : Node) (e : LogEntry) (commitIndex : Nat) :
    (n.accepts e commitIndex).raft.core =
      Raft.applyCore n.raft.core (n.raft.number e) :=
  Raft.core_applyLocked ((n.raft.logged e).setCommit commitIndex) (n.raft.number e)

theorem accepts_frame (n : Node) (e : LogEntry) (commitIndex : Nat) :
    (n.accepts e commitIndex).raft.log = n.raft.log ++ [n.raft.number e] ∧
      (n.accepts e commitIndex).raft.peers = n.raft.peers ∧
      (n.accepts e commitIndex).raft.journalOpen = n.raft.journalOpen :=
  Raft.applyLocked_frame ((n.raft.logged e).setCommit commitIndex) (n.raft.number e)

/-- The ends of a submitted entry. -/
inductive Submitted (n : Node) (e : LogEntry) (env : WriteEnv) :
    Option KvError → Node → Prop where
  | journalClosed (closed : n.raft.journalOpen = false) :
      Submitted n e env (some .journal) (n.leaves e [])
  | journalFailed (opened : n.raft.journalOpen = true) (failed : env.write ≠ .ok) :
      Submitted n e env (some .journal)
        (n.leaves e (env.write.leaves (n.raft.number e)))
  | timedOut (opened : n.raft.journalOpen = true) (written : env.write = .ok)
      (others : n.raft.peers.length ≠ 1)
      (tooFew : n.acks env.answered < n.raft.peers.length / 2 + 1) :
      Submitted n e env (some .replicationTimeout) (n.leaves e [.whole (n.raft.number e)])
  | acknowledged (opened : n.raft.journalOpen = true) (written : env.write = .ok)
      (quorum : n.raft.peers.length = 1 ∨ n.raft.peers.length / 2 + 1 ≤ n.acks env.answered)
      (commitIndex : Nat) :
      Submitted n e env none (n.accepts e commitIndex)

/-- A submitted entry is journaled first, and only then replicated. -/
theorem submit_eq (n : Node) (e : LogEntry) (env : WriteEnv) :
    n.submit e env =
      if n.raft.journalOpen = false then (some .journal, n.leaves e [])
      else if env.write = .ok then
        (n.leaves e [.whole (n.raft.number e)]).replicate (n.raft.number e) env.answered
      else (some .journal, n.leaves e (env.write.leaves (n.raft.number e))) := by
  have handle : (n.raft.appendLog e).2.journalOpen = n.raft.journalOpen := rfl
  simp only [submit, append, writeJournal, handle, leaves, WriteOutcome.leaves,
    Raft.number, Raft.logged, List.append_nil]
  by_cases closed : n.raft.journalOpen = false
  · simp [closed]
  · cases env.write <;> simp [closed]

theorem submitted_submit (n : Node) (e : LogEntry) (env : WriteEnv) :
    Submitted n e env (n.submit e env).1 (n.submit e env).2 := by
  rw [submit_eq]
  split
  · rename_i closed
    exact .journalClosed closed
  · rename_i notClosed
    have opened : n.raft.journalOpen = true := by simpa using notClosed
    split
    · rename_i written
      unfold replicate
      split
      · rename_i single
        exact .acknowledged opened written (Or.inl single) (n.raft.number e).index
      · rename_i others
        split
        · rename_i tooFew
          exact .timedOut opened written others tooFew
        · rename_i enough
          exact .acknowledged opened written (Or.inr (Nat.le_of_not_lt enough)) _
    · rename_i failed
      exact .journalFailed opened failed

/-- What a snapshot can change: the handle, and the snapshot with the journal. -/
structure Snapshotted (n next : Node) : Prop where
  cfg : next.cfg = n.cfg
  core : next.raft.core = n.raft.core
  log : next.raft.log = n.raft.log
  peers : next.raft.peers = n.raft.peers
  disk : (next.disk.snap = n.disk.snap ∧ next.disk.journal = n.disk.journal) ∨
    (next.disk.snap = some n.raft.takeSnapshot ∧
      (next.disk.journal = n.disk.journal ∨ next.disk.journal = []))

theorem snapshotted_snapshot (n : Node) (outcome : SnapshotOutcome) :
    Snapshotted n (n.snapshot outcome).2 := by
  simp only [snapshot]
  split
  · exact ⟨rfl, rfl, rfl, rfl, Or.inl ⟨rfl, rfl⟩⟩
  · split
    · exact ⟨rfl, rfl, rfl, rfl, Or.inl ⟨rfl, rfl⟩⟩
    · split
      · exact ⟨rfl, rfl, rfl, rfl, Or.inl ⟨rfl, rfl⟩⟩
      · exact ⟨rfl, rfl, rfl, rfl, Or.inl ⟨rfl, rfl⟩⟩
      · exact ⟨rfl, rfl, rfl, rfl, Or.inl ⟨rfl, rfl⟩⟩
      · exact ⟨rfl, rfl, rfl, rfl, Or.inr ⟨rfl, Or.inl rfl⟩⟩
      · exact ⟨rfl, rfl, rfl, rfl, Or.inr ⟨rfl, Or.inr rfl⟩⟩

/-- The reply to an acknowledged entry. -/
def acknowledge (n : Node) (e : LogEntry) : Reply :=
  match e.op with
  | .put => .entry (n.raft.st.get e.key)
  | .del => .done

/-- The reply to a submitted entry. -/
def replyTo (e : LogEntry) (submitted : Option KvError × Node) : Reply :=
  match submitted.1 with
  | some err => .failed err
  | none => submitted.2.acknowledge e

theorem put_eq (n : Node) (key : String) (value : Bytes) (env : WriteEnv) :
    let e : LogEntry := ⟨0, 0, .put, key, value, n.raft.nextVersion key⟩
    n.put key value env = (replyTo e (n.submit e env), (n.submit e env).2) := by
  simp only [put, replyTo, acknowledge]
  split <;> rename_i submitted <;> simp [submitted]

theorem delete_eq (n : Node) (key : String) (env : WriteEnv) :
    let e : LogEntry := ⟨0, 0, .del, key, [], 0⟩
    n.delete key env = (replyTo e (n.submit e env), (n.submit e env).2) := by
  simp only [delete, replyTo, acknowledge]
  split <;> rename_i submitted <;> simp [submitted]

theorem compareAndSwap_eq {n : Node} {key : String} {value : Bytes} {expect version : Nat}
    {env : WriteEnv} (checked : n.raft.checkVersion key expect = some version) :
    let e : LogEntry := ⟨0, 0, .put, key, value, version⟩
    n.compareAndSwap key value expect env = (replyTo e (n.submit e env), (n.submit e env).2) := by
  simp only [compareAndSwap, checked, replyTo, acknowledge]
  split <;> rename_i submitted <;> simp [submitted]

/-- An operation that reaches `append` answers by the end of its entry. -/
theorem react_of_request {n : Node} {op : Op} {e : LogEntry} {env : WriteEnv}
    (request : op.request n = some (e, env)) :
    n.react op = (replyTo e (n.submit e env), some (n.submit e env).2) := by
  cases op with
  | put key value env =>
      cases request
      simp only [react, put_eq]
  | delete key env =>
      cases request
      simp only [react, delete_eq]
  | compareAndSwap key value expect env =>
      obtain ⟨version, checked, same⟩ := Option.map_eq_some_iff.mp request
      cases same
      simp only [react, compareAndSwap_eq checked]
  | get | list | snapshot | electionTimeout | reopen => cases request

/-- Everything one operation can do to a node. -/
inductive Transition (n : Node) : Op → Reply → Node → Prop where
  | get (key : String) : Transition n (.get key) (n.get key) n
  | list (pfx : String) : Transition n (.list pfx) (n.list pfx) n
  | mismatch {key : String} {value : Bytes} {expect : Nat} {env : WriteEnv}
      (refused : n.raft.checkVersion key expect = none) :
      Transition n (.compareAndSwap key value expect env) (.failed .casMismatch) n
  | failed {op : Op} {e : LogEntry} {env : WriteEnv} {err : KvError} {next : Node}
      (request : op.request n = some (e, env))
      (submitted : Submitted n e env (some err) next) :
      Transition n op (.failed err) next
  | acknowledged {op : Op} {e : LogEntry} {env : WriteEnv} {next : Node}
      (request : op.request n = some (e, env))
      (submitted : Submitted n e env none next) :
      Transition n op (next.acknowledge e) next
  | snapshot (outcome : SnapshotOutcome) :
      Transition n (.snapshot outcome) (n.snapshot outcome).1 (n.snapshot outcome).2
  | electionTimeout :
      Transition n .electionTimeout .done
        { n with raft := n.raft.electionTimeout n.cfg.nodeID }
  | reopen {next : Node} (opened : n.reopen = .ok next) :
      Transition n .reopen .done next

theorem transition_of_request {n : Node} {op : Op} {e : LogEntry} {env : WriteEnv}
    (request : op.request n = some (e, env)) :
    Transition n op (replyTo e (n.submit e env)) (n.submit e env).2 := by
  have submitted := submitted_submit n e env
  unfold replyTo
  split
  · rename_i failed
    rw [failed] at submitted
    exact .failed request submitted
  · rename_i accepted
    rw [accepted] at submitted
    exact .acknowledged request submitted

theorem transition_of_react {n next : Node} {op : Op} {reply : Reply}
    (reacted : n.react op = (reply, some next)) : Transition n op reply next := by
  cases op with
  | get key =>
      cases reacted
      exact .get key
  | list pfx =>
      cases reacted
      exact .list pfx
  | snapshot outcome =>
      cases reacted
      exact .snapshot outcome
  | electionTimeout =>
      cases reacted
      exact .electionTimeout
  | reopen =>
      simp only [react] at reacted
      split at reacted
      · cases reacted
      · rename_i opened
        cases reacted
        exact .reopen opened
  | put key value env =>
      rw [react_of_request rfl] at reacted
      cases reacted
      exact transition_of_request rfl
  | delete key env =>
      rw [react_of_request rfl] at reacted
      cases reacted
      exact transition_of_request rfl
  | compareAndSwap key value expect env =>
      cases checked : n.raft.checkVersion key expect with
      | none =>
          simp only [react, compareAndSwap, checked, Prod.mk.injEq, Option.some.injEq]
            at reacted
          obtain ⟨rfl, rfl⟩ := reacted
          exact .mismatch checked
      | some version =>
          have request : (Op.compareAndSwap key value expect env).request n =
              some (⟨0, 0, .put, key, value, version⟩, env) := by
            simp [Op.request, checked]
          rw [react_of_request request] at reacted
          cases reacted
          exact transition_of_request request

theorem transition_of_step {n next : Node} {op : Op} (stepped : n.step op = some next) :
    ∃ reply, Transition n op reply next :=
  ⟨(n.react op).1, transition_of_react (Prod.ext rfl stepped)⟩

/-- What `reopen` yields, read off the data directory. -/
theorem recovered_of_openOn {cfg : Config} {disk : Disk} {n : Node}
    (opened : openOn cfg disk = .ok n) :
    n.cfg = cfg ∧ n.disk = disk ∧
      Raft.Recovered cfg (readJournal disk.journal).entries disk.snap n.raft := by
  unfold openOn at opened
  split at opened
  · cases opened
  · rename_i raft recovered
    cases opened
    exact ⟨rfl, rfl, Raft.recovered_of_openRaft recovered⟩

/-- A directory can only be opened under a proper configuration. -/
theorem configured_of_openOn {cfg : Config} {disk : Disk} {n : Node}
    (opened : openOn cfg disk = .ok n) : cfg.nodeID ≠ "" ∧ cfg.dataDir ≠ "" := by
  unfold openOn at opened
  split at opened
  · cases opened
  · rename_i raft recovered
    obtain ⟨hasID, hasDir, _⟩ := (Raft.openRaft_isOk_iff _ _ _).mp ⟨raft, recovered⟩
    exact ⟨hasID, hasDir⟩

/-- A directory that was opened once and whose journal decodes opens again. -/
theorem openOn_isOk {cfg : Config} {first : Disk} {n : Node} (opened : openOn cfg first = .ok n)
    {disk : Disk} (decodable : (readJournal disk.journal).failure = none) :
    ∃ next, openOn cfg disk = .ok next := by
  obtain ⟨hasID, hasDir⟩ := configured_of_openOn opened
  obtain ⟨raft, recovered⟩ := (Raft.openRaft_isOk_iff cfg (readJournal disk.journal)
    disk.snap).mpr ⟨hasID, hasDir, decodable⟩
  exact ⟨⟨cfg, raft, disk⟩, by simp [openOn, recovered]⟩

end Node

/-- A journal of whole lines decodes to its entries. -/
theorem readJournal_whole (entries : List LogEntry) :
    readJournal (entries.map .whole) = ⟨entries, none⟩ := by
  induction entries with
  | nil => rfl
  | cons e rest ih => simp [readJournal, ih]

end MiniCloud.Db
