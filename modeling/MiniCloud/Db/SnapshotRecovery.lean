import MiniCloud.Db.Transitions

/-!
# Recovery after snapshots

`recover` replays the journal and then lets `snap.json` replace the result, and
a snapshot empties the journal.  While a directory holds no snapshot, memory and
journal run the same fold, so a restart gives the map back.  Once there is a
snapshot, a restart gives the map of the snapshot: what was journaled after it
is replayed and thrown away.
-/

namespace MiniCloud.Db

open MiniCloud.Library

/-- No failed write leaves bytes in the journal. -/
def Op.WholeWrites : Op → Prop
  | .put _ _ env | .delete _ env | .compareAndSwap _ _ _ env =>
      env.write = .ok ∨ env.write = .lost
  | _ => True

namespace Node

/-- The map from keys to values and versions that the store holds. -/
def view (n : Node) : String → Option (Bytes × Nat) := n.raft.st.entries.view

/-- How memory and data directory of a single node belong together. -/
structure Mirrored (cfg : Config) (n : Node) : Prop where
  cfg : n.cfg = cfg
  single : n.raft.peers.length = 1
  replayed : ∃ entries : List LogEntry, n.disk.journal = entries.map .whole ∧
    (n.disk.snap = none → n.raft.core = entries.foldl Raft.applyCore (.empty, 0))
  settled : ∀ snap, n.disk.snap = some snap → n.disk.journal = [] →
    n.raft.st.entries = snap.state

theorem Mirrored.opened {cfg : Config} {disk : Disk} {n : Node} (single : SingleNode cfg)
    {entries : List LogEntry} (whole : disk.journal = entries.map .whole)
    (opened : openOn cfg disk = .ok n) : Mirrored cfg n := by
  obtain ⟨sameCfg, sameDisk, recovered⟩ := recovered_of_openOn opened
  rw [whole, readJournal_whole] at recovered
  have core := recovered.core
  refine ⟨sameCfg, by rw [recovered.peers]; exact single,
    ⟨entries, by rw [sameDisk, whole], ?_⟩, ?_⟩
  · intro noSnapshot
    rw [sameDisk] at noSnapshot
    rw [core, noSnapshot]
    rfl
  · intro snap hasSnapshot _
    rw [sameDisk] at hasSnapshot
    rw [hasSnapshot] at core
    exact congrArg (fun c => c.1.entries) core

/-- An entry that was not acknowledged and left no bytes changes the log only. -/
theorem Mirrored.leaves_nothing {cfg : Config} {n : Node} (mirrored : Mirrored cfg n)
    (e : LogEntry) : Mirrored cfg (n.leaves e []) := by
  have sameDisk : (n.leaves e []).disk = n.disk := by simp [leaves]
  obtain ⟨entries, whole, replayed⟩ := mirrored.replayed
  refine ⟨mirrored.cfg, mirrored.single, ⟨entries, ?_, ?_⟩, ?_⟩
  · rw [sameDisk, whole]
  · rw [sameDisk]
    exact replayed
  · rw [sameDisk]
    exact mirrored.settled

theorem Mirrored.accepts {cfg : Config} {n : Node} (mirrored : Mirrored cfg n)
    (e : LogEntry) (commitIndex : Nat) : Mirrored cfg (n.accepts e commitIndex) := by
  obtain ⟨entries, whole, replayed⟩ := mirrored.replayed
  refine ⟨mirrored.cfg, ?_, ⟨entries ++ [n.raft.number e], ?_, ?_⟩, ?_⟩
  · rw [(accepts_frame n e commitIndex).2.1]
    exact mirrored.single
  · change n.disk.journal ++ _ = _
    rw [whole, List.map_append]
    rfl
  · intro noSnapshot
    rw [accepts_core, replayed noSnapshot, List.foldl_append]
    rfl
  · intro snap _ emptied
    exact absurd emptied (by simp [Node.accepts])

theorem Mirrored.snapshot {cfg : Config} {n next : Node} (mirrored : Mirrored cfg n)
    (taken : Snapshotted n next) : Mirrored cfg next := by
  obtain ⟨entries, whole, replayed⟩ := mirrored.replayed
  have sameStore : next.raft.st.entries = n.raft.st.entries :=
    congrArg (fun c => c.1.entries) taken.core
  have single : next.raft.peers.length = 1 := by
    rw [taken.peers]
    exact mirrored.single
  rcases taken.disk with ⟨sameSnap, sameJournal⟩ | ⟨newSnap, journal⟩
  · refine ⟨taken.cfg.trans mirrored.cfg, single,
      ⟨entries, sameJournal.trans whole, ?_⟩, ?_⟩
    · rw [sameSnap, taken.core]
      exact replayed
    · rw [sameSnap, sameJournal, sameStore]
      exact mirrored.settled
  · have fits : ∃ entries : List LogEntry, next.disk.journal = entries.map .whole := by
      rcases journal with kept | emptied
      · exact ⟨entries, kept.trans whole⟩
      · exact ⟨[], emptied⟩
    obtain ⟨kept, wholeKept⟩ := fits
    refine ⟨taken.cfg.trans mirrored.cfg, single, ⟨kept, wholeKept, ?_⟩, ?_⟩
    · rw [newSnap]
      intro noSnapshot
      cases noSnapshot
    · intro snap hasSnapshot _
      rw [newSnap, Option.some.injEq] at hasSnapshot
      rw [sameStore, ← hasSnapshot]
      rfl

/-- A write that leaves no stray bytes either leaves nothing or a whole line. -/
theorem write_of_wholeWrites {n : Node} {op : Op} {e : LogEntry} {env : WriteEnv}
    (request : op.request n = some (e, env)) (whole : op.WholeWrites) :
    env.write = .ok ∨ env.write = .lost := by
  cases op with
  | put key value env' =>
      cases request
      exact whole
  | delete key env' =>
      cases request
      exact whole
  | compareAndSwap key value expect env' =>
      simp only [Op.request, Option.map_eq_some_iff, Prod.mk.injEq] at request
      obtain ⟨_, _, _, rfl⟩ := request
      exact whole
  | get => cases request
  | list => cases request
  | snapshot => cases request
  | electionTimeout => cases request
  | reopen => cases request

theorem Mirrored.transition {cfg : Config} {n next : Node} {op : Op} {reply : Reply}
    (single : SingleNode cfg) (mirrored : Mirrored cfg n) (whole : op.WholeWrites)
    (transition : Transition n op reply next) : Mirrored cfg next := by
  cases transition with
  | get => exact mirrored
  | list => exact mirrored
  | mismatch => exact mirrored
  | failed request submitted =>
      cases submitted with
      | journalClosed => exact mirrored.leaves_nothing _
      | journalFailed opened failed =>
          rcases write_of_wholeWrites request whole with written | lost
          · exact absurd written failed
          · rw [lost]
            exact mirrored.leaves_nothing _
      | timedOut opened written others => exact absurd mirrored.single others
  | acknowledged request submitted =>
      cases submitted with
      | acknowledged opened written quorum commitIndex => exact mirrored.accepts _ commitIndex
  | snapshot outcome => exact mirrored.snapshot (snapshotted_snapshot n outcome)
  | electionTimeout =>
      exact ⟨mirrored.cfg, mirrored.single, mirrored.replayed, mirrored.settled⟩
  | reopen opened =>
      obtain ⟨entries, wholeLines, _⟩ := mirrored.replayed
      rw [Node.reopen, mirrored.cfg] at opened
      exact Mirrored.opened single wholeLines opened

theorem Mirrored.of_run {cfg : Config} {start n : Node} {ops : List Op}
    (single : SingleNode cfg) (started : Started cfg start)
    (whole : Guarded step (fun _ op => op.WholeWrites) start ops)
    (reached : execute step start ops = some n) : Mirrored cfg n := by
  have emptyJournal : Disk.empty.journal = ([] : List LogEntry).map .whole := rfl
  refine invariant_of_guarded step (Mirrored cfg) ?_ (Mirrored.opened single emptyJournal started)
    whole reached
  intro state op next mirrored wholeOp stepped
  obtain ⟨reply, transition⟩ := transition_of_step stepped
  exact mirrored.transition single wholeOp transition

/-- `Close` and `openRaft` on the same directory give the map back. -/
def RecoversView (n : Node) : Prop :=
  ∃ next, n.reopen = .ok next ∧ next.view = n.view

/-- After any run of a single node in which no failed write left bytes in the
journal, the directory opens again.  The store gets its map back when there is
no snapshot or when nothing was journaled since the last one; once there is a
snapshot, it does so exactly when the snapshot holds that map. -/
theorem reopen_recovers {cfg : Config} {start n : Node} {ops : List Op}
    (single : SingleNode cfg) (started : Started cfg start)
    (whole : Guarded step (fun _ op => op.WholeWrites) start ops)
    (reached : execute step start ops = some n) :
    (n.disk.snap = none ∨ n.disk.journal = [] → n.RecoversView) ∧
      ∀ snap, n.disk.snap = some snap → (n.RecoversView ↔ snap.state.view = n.view) := by
  have mirrored := Mirrored.of_run single started whole reached
  obtain ⟨entries, wholeLines, replayed⟩ := mirrored.replayed
  have decodable : (readJournal n.disk.journal).failure = none := by
    rw [wholeLines, readJournal_whole]
  obtain ⟨next, opened⟩ := openOn_isOk started decodable
  have core := (recovered_of_openOn opened).2.2.core
  rw [wholeLines, readJournal_whole] at core
  have reopened : n.reopen = .ok next := by
    rw [Node.reopen, mirrored.cfg]
    exact opened
  have snapshotWins : ∀ snap, n.disk.snap = some snap → next.view = snap.state.view := by
    intro snap snapEq
    rw [snapEq] at core
    exact congrArg (fun c => c.1.entries.view) core
  constructor
  · intro unwritten
    refine ⟨next, reopened, ?_⟩
    cases snapEq : n.disk.snap with
    | none =>
        rw [snapEq] at core
        have sameCore : next.raft.core = n.raft.core := core.trans (replayed snapEq).symm
        exact congrArg (fun c => c.1.entries.view) sameCore
    | some snap =>
        have emptied : n.disk.journal = [] := by
          rcases unwritten with absent | emptied
          · rw [snapEq] at absent
            cases absent
          · exact emptied
        have held := mirrored.settled snap snapEq emptied
        exact (snapshotWins snap snapEq).trans (congrArg EntryMap.view held.symm)
  · intro snap snapEq
    constructor
    · rintro ⟨other, reopenedOther, same⟩
      rw [reopened] at reopenedOther
      cases reopenedOther
      exact (snapshotWins snap snapEq).symm.trans same
    · intro held
      exact ⟨next, reopened, (snapshotWins snap snapEq).trans held⟩

theorem reopen_recovers_after_snapshot :
    ∃ n, execute step testNode [.put "a" [1] ⟨.ok, []⟩, .snapshot .ok] = some n ∧
      n.disk.journal = [] ∧ n.RecoversView := by
  have single : SingleNode testConfig := rfl
  have whole : Guarded step (fun _ op => op.WholeWrites) testNode
      [.put "a" [1] ⟨.ok, []⟩, .snapshot .ok] :=
    ⟨Or.inl rfl, fun _ _ => ⟨trivial, fun _ _ => trivial⟩⟩
  exact ⟨_, rfl, rfl, (reopen_recovers single testNode_started whole rfl).1 (Or.inr rfl)⟩

/-- As many writes as the run loop lets pass before its first snapshot. -/
def writesToSnapshot : List Op := List.replicate 256 (.put "a" [1] ⟨.ok, []⟩)

/-- The write that follows the first snapshot is gone after a restart. -/
theorem put_after_snapshot_lost :
    ∃ n, execute step testNode
        (writesToSnapshot ++ [.snapshot .ok, .put "b" [2] ⟨.ok, []⟩]) = some n ∧
      n.raft.applied = 257 ∧ n.view "b" = some ([2], 1) ∧ ¬ n.RecoversView := by
  refine exists_of_tested step
    (fun n => n.raft.applied = 257 ∧ n.view "b" = some ([2], 1) ∧
      ((n.step .reopen).map fun next => next.view "b") = some none) (by decide +kernel) ?_
  rintro n _ ⟨applied, held, recovered⟩
  refine ⟨applied, held, ?_⟩
  rintro ⟨next, reopened, same⟩
  have stepped : n.step .reopen = some next := by simp [step, react, reopened]
  rw [stepped, Option.map_some, Option.some.injEq, same, held] at recovered
  cases recovered

end Node

end MiniCloud.Db
