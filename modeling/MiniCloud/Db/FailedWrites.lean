import MiniCloud.Db.Acknowledged

/-!
# Traces of failed writes

A write that fails after `append` has already taken a number in the log and may
have left its line in the journal.  In memory that is invisible: the two runs
differ only in the numbering.  A restart makes it visible, because it replays
every journal line and counts the lines to number the next entry.  A successful
snapshot in between removes the difference, and so does a restart that finds the
journal as it was before the call.
-/

namespace MiniCloud.Db

open MiniCloud.Library

/-- Whether the decoder gets past a line. -/
def JournalLine.isWhole : JournalLine → Bool
  | .whole _ => true
  | .torn _ => false

/-- What the decoder makes of a journal depends on the shape of its lines only,
as far as the number of entries and the failure are concerned. -/
theorem readJournal_of_shape {left right : List JournalLine}
    (shape : left.map JournalLine.isWhole = right.map JournalLine.isWhole) :
    (readJournal left).entries.length = (readJournal right).entries.length ∧
      (readJournal left).failure = (readJournal right).failure := by
  induction left generalizing right with
  | nil =>
      rw [List.map_nil, eq_comm, List.map_eq_nil_iff] at shape
      rw [shape]
      exact ⟨rfl, rfl⟩
  | cons line rest ih =>
      obtain ⟨other, others, rfl, sameLine, sameRest⟩ :=
        List.map_eq_cons_iff.mp shape.symm
      obtain ⟨lengths, failures⟩ := ih sameRest.symm
      cases line with
      | whole e =>
          cases other with
          | torn => cases sameLine
          | whole e' => exact ⟨congrArg Nat.succ lengths, failures⟩
      | torn e =>
          cases other with
          | whole => cases sameLine
          | torn e' =>
              -- only whether more lines follow decides the error
              cases rest with
              | nil =>
                  rw [List.map_nil, List.map_eq_nil_iff] at sameRest
                  rw [sameRest]
                  exact ⟨rfl, rfl⟩
              | cons next more =>
                  obtain ⟨next', more', rfl, _, _⟩ := List.map_eq_cons_iff.mp sameRest
                  exact ⟨rfl, rfl⟩

/-- The operation is a snapshot that succeeds. -/
def Op.Truncates (op : Op) (n : Node) : Prop :=
  ∃ outcome, op = .snapshot outcome ∧ (n.snapshot outcome).1 = .done

/-- The operations that write. -/
def Op.Writes : Op → Prop
  | .put _ _ _ | .delete _ _ | .compareAndSwap _ _ _ _ => True
  | _ => False

/-- The part of a snapshot that `recover` reads. -/
def RaftSnapshot.content (snap : RaftSnapshot) : Nat × EntryMap := (snap.index, snap.state)

namespace Node

/-! ## The verdict on a submitted entry -/

/-- The error of a submitted entry, which does not depend on the entry. -/
def verdict (n : Node) (env : WriteEnv) : Option KvError :=
  if n.raft.journalOpen = false then some .journal
  else if env.write ≠ .ok then some .journal
  else if n.raft.peers.length ≠ 1 ∧ n.acks env.answered < n.raft.peers.length / 2 + 1 then
    some .replicationTimeout
  else none

/-- The lines that a submitted entry leaves in the journal. -/
def linesLeft (n : Node) (e : LogEntry) (env : WriteEnv) : List JournalLine :=
  if n.raft.journalOpen = false then [] else env.write.leaves (n.raft.number e)

theorem verdict_of_submitted {n next : Node} {e : LogEntry} {env : WriteEnv}
    {err : Option KvError} (submitted : Submitted n e env err next) :
    n.verdict env = err ∧
      (err = none → ∃ commitIndex, next = n.accepts e commitIndex) ∧
      (err ≠ none → next = n.leaves e (n.linesLeft e env)) := by
  cases submitted with
  | journalClosed closed => simp [verdict, linesLeft, closed]
  | journalFailed opened failed => simp [verdict, linesLeft, opened, failed]
  | timedOut opened written others tooFew =>
      simp [verdict, linesLeft, opened, written, others, tooFew, WriteOutcome.leaves]
  | acknowledged opened written quorum commitIndex =>
      refine ⟨?_, fun _ => ⟨commitIndex, rfl⟩, fun failed => absurd rfl failed⟩
      rcases quorum with single | enough
      · simp [verdict, opened, written, single]
      · simp [verdict, opened, written, Nat.not_lt.mpr enough]

theorem submit_of_refused {n : Node} {env : WriteEnv} {err : KvError}
    (refused : n.verdict env = some err) (e : LogEntry) :
    n.submit e env = (some err, n.leaves e (n.linesLeft e env)) := by
  obtain ⟨verdict, _, left⟩ := verdict_of_submitted (submitted_submit n e env)
  rw [refused] at verdict
  exact Prod.ext verdict.symm (left (by rw [← verdict]; simp))

theorem submit_of_accepted {n : Node} {env : WriteEnv} (accepted : n.verdict env = none)
    (e : LogEntry) : ∃ commitIndex, n.submit e env = (none, n.accepts e commitIndex) := by
  obtain ⟨verdict, accepts, _⟩ := verdict_of_submitted (submitted_submit n e env)
  rw [accepted] at verdict
  obtain ⟨commitIndex, next⟩ := accepts verdict.symm
  exact ⟨commitIndex, Prod.ext verdict.symm next⟩

/-! ## Nodes that clients cannot tell apart -/

/-- The two nodes hold the same content and number the next entry to the same
effect. -/
structure Alike (left right : Node) : Prop where
  config : left.cfg = right.cfg
  peers : left.raft.peers = right.raft.peers
  journalOpen : left.raft.journalOpen = right.raft.journalOpen
  st : left.raft.st = right.raft.st
  snap : left.disk.snap.map RaftSnapshot.content = right.disk.snap.map RaftSnapshot.content
  numbered : (left.raft.Ready ∧ right.raft.Ready) ∨
    (left.raft.log.length = right.raft.log.length ∧
      left.raft.lastApplied = right.raft.lastApplied)

/-- The journals got lines of the same shape. -/
def Extended (left right left' right' : Node) : Prop :=
  (left.disk.snap ≠ none → left'.disk.snap ≠ none) ∧
    ∃ lines lines', lines.map JournalLine.isWhole = lines'.map JournalLine.isWhole ∧
      left'.disk.journal = left.disk.journal ++ lines ∧
      right'.disk.journal = right.disk.journal ++ lines'

/-- A snapshot stands in for everything that was journaled. -/
def Truncated (left right : Node) : Prop :=
  left.disk.snap ≠ none ∧ left.disk.journal = [] ∧ right.disk.journal = []

theorem Extended.refl (left right : Node) : Extended left right left right :=
  ⟨id, [], [], rfl, (List.append_nil _).symm, (List.append_nil _).symm⟩

namespace Alike

variable {left right : Node}

theorem verdict_eq (alike : Alike left right) (env : WriteEnv) :
    left.verdict env = right.verdict env := by
  unfold verdict acks
  rw [alike.config, alike.peers, alike.journalOpen]

theorem request_eq (alike : Alike left right) (op : Op) :
    op.request left = op.request right := by
  cases op <;> simp only [Op.request, Raft.nextVersion, Raft.checkVersion, alike.st]

theorem linesLeft_shape (alike : Alike left right) (e : LogEntry) (env : WriteEnv) :
    (left.linesLeft e env).map JournalLine.isWhole =
      (right.linesLeft e env).map JournalLine.isWhole := by
  unfold linesLeft
  rw [alike.journalOpen]
  split
  · rfl
  · cases env.write <;> rfl

theorem leaves (alike : Alike left right) (e : LogEntry) (lines lines' : List JournalLine) :
    Alike (left.leaves e lines) (right.leaves e lines') := by
  refine ⟨alike.config, alike.peers, alike.journalOpen, alike.st, alike.snap, ?_⟩
  rcases alike.numbered with ⟨leftReady, rightReady⟩ | ⟨sameLength, sameApplied⟩
  · exact Or.inl ⟨ready_logged leftReady e, ready_logged rightReady e⟩
  · refine Or.inr ⟨?_, sameApplied⟩
    change (left.raft.logged e).log.length = (right.raft.logged e).log.length
    rw [Raft.logged_log, Raft.logged_log, List.length_append, List.length_append, sameLength]
    rfl

/-- Both nodes apply the entry or both drop it. -/
theorem accepts (alike : Alike left right) (e : LogEntry) (c c' : Nat) :
    Alike (left.accepts e c) (right.accepts e c') := by
  obtain ⟨leftLog, leftPeers, leftHandle⟩ := accepts_frame left e c
  obtain ⟨rightLog, rightPeers, rightHandle⟩ := accepts_frame right e c'
  have sameEffect :
      left.raft.st.apply (left.raft.number e) = right.raft.st.apply (right.raft.number e) := by
    rw [alike.st]
    rfl
  have content : (left.accepts e c).raft.st = (right.accepts e c').raft.st ∧
      (((left.accepts e c).raft.Ready ∧ (right.accepts e c').raft.Ready) ∨
        ((left.accepts e c).raft.log.length = (right.accepts e c').raft.log.length ∧
          (left.accepts e c).raft.lastApplied = (right.accepts e c').raft.lastApplied)) := by
    rcases alike.numbered with ⟨leftReady, rightReady⟩ | ⟨sameLength, sameApplied⟩
    · refine ⟨?_, Or.inl ⟨ready_accepts leftReady e c, ready_accepts rightReady e c'⟩⟩
      have leftCore := congrArg Prod.fst (accepts_st_of_ready leftReady e c)
      have rightCore := congrArg Prod.fst (accepts_st_of_ready rightReady e c')
      exact leftCore.trans (sameEffect.trans rightCore.symm)
    · have sameIndex : (left.raft.number e).index = (right.raft.number e).index := by
        rw [Raft.number_index, Raft.number_index, sameLength]
      have sameCore : (left.accepts e c).raft.core = (right.accepts e c').raft.core := by
        rw [accepts_core, accepts_core]
        unfold Raft.applyCore Raft.core
        rw [sameEffect]
        simp only [sameIndex, sameApplied, alike.st]
      refine ⟨congrArg Prod.fst sameCore, Or.inr ⟨?_, congrArg Prod.snd sameCore⟩⟩
      rw [leftLog, rightLog, List.length_append, List.length_append, sameLength]
      rfl
  refine ⟨alike.config, ?_, ?_, content.1, alike.snap, content.2⟩
  · rw [leftPeers, rightPeers, alike.peers]
  · rw [leftHandle, rightHandle, alike.journalOpen]

/-- A submitted entry has the same end on both nodes. -/
theorem submit (alike : Alike left right) (e : LogEntry) (env : WriteEnv) :
    (left.submit e env).1 = (right.submit e env).1 ∧
      Alike (left.submit e env).2 (right.submit e env).2 ∧
      Extended left right (left.submit e env).2 (right.submit e env).2 := by
  have sameVerdict := alike.verdict_eq env
  cases decided : left.verdict env with
  | some err =>
      rw [submit_of_refused decided e, submit_of_refused (sameVerdict.symm.trans decided) e]
      exact ⟨rfl, alike.leaves e _ _, id, _, _, alike.linesLeft_shape e env, rfl, rfl⟩
  | none =>
      obtain ⟨c, leftEnd⟩ := submit_of_accepted decided e
      obtain ⟨c', rightEnd⟩ := submit_of_accepted (sameVerdict.symm.trans decided) e
      rw [leftEnd, rightEnd]
      exact ⟨rfl, alike.accepts e c c', id, [.whole (left.raft.number e)],
        [.whole (right.raft.number e)], rfl, rfl, rfl⟩

/-- Files and handle may change as long as both directories recover alike. -/
theorem onDisk (alike : Alike left right) (opened : Bool) (disk disk' : Disk)
    (sameSnap : disk.snap.map RaftSnapshot.content = disk'.snap.map RaftSnapshot.content) :
    Alike ⟨left.cfg, { left.raft with journalOpen := opened }, disk⟩
      ⟨right.cfg, { right.raft with journalOpen := opened }, disk'⟩ :=
  ⟨alike.config, alike.peers, rfl, alike.st, sameSnap, alike.numbered⟩

theorem takeSnapshot_eq (alike : Alike left right) :
    (some left.raft.takeSnapshot).map RaftSnapshot.content =
      (some right.raft.takeSnapshot).map RaftSnapshot.content := by
  simp only [Option.map_some, Raft.takeSnapshot, RaftSnapshot.content, alike.st]

/-- A snapshot has the same end on both nodes, and a successful one removes the
journals. -/
theorem snapshot (alike : Alike left right) (outcome : SnapshotOutcome) :
    (left.snapshot outcome).1 = (right.snapshot outcome).1 ∧
      Alike (left.snapshot outcome).2 (right.snapshot outcome).2 ∧
      if (left.snapshot outcome).1 = .done then
        Truncated (left.snapshot outcome).2 (right.snapshot outcome).2
      else Extended left right (left.snapshot outcome).2 (right.snapshot outcome).2 := by
  have unmoved := Extended.refl left right
  have sameHandle := alike.journalOpen
  cases handle : left.raft.journalOpen with
  | false =>
      have tmpWritten : Alike (left.writeTmp left.raft.takeSnapshot)
          (right.writeTmp right.raft.takeSnapshot) :=
        ⟨alike.config, alike.peers, alike.journalOpen, alike.st, alike.snap, alike.numbered⟩
      rw [handle] at sameHandle
      cases outcome <;>
        simp only [Node.snapshot, Node.writeTmp, handle, ← sameHandle, if_true, if_false,
          reduceCtorEq, true_and]
      all_goals first | exact ⟨alike, unmoved⟩ | exact ⟨tmpWritten, unmoved⟩
  | true =>
      rw [handle] at sameHandle
      have closed := alike.onDisk false
        ⟨left.disk.journal, some left.raft.takeSnapshot, left.disk.snap⟩
        ⟨right.disk.journal, some right.raft.takeSnapshot, right.disk.snap⟩ alike.snap
      cases outcome with
      | writeFailed => exact ⟨rfl, alike, unmoved⟩
      | closeFailed | renameFailed =>
          simp only [Node.snapshot, Node.writeTmp, handle, ← sameHandle, if_false, reduceCtorEq,
            true_and]
          exact ⟨closed, unmoved⟩
      | openFailed =>
          simp only [Node.snapshot, Node.writeTmp, handle, ← sameHandle, if_false, reduceCtorEq,
            true_and]
          refine ⟨alike.onDisk false ⟨left.disk.journal, none, some left.raft.takeSnapshot⟩
            ⟨right.disk.journal, none, some right.raft.takeSnapshot⟩ alike.takeSnapshot_eq, ?_⟩
          exact ⟨fun _ => Option.some_ne_none _, unmoved.2⟩
      | ok =>
          simp only [Node.snapshot, Node.writeTmp, handle, ← sameHandle, if_false, if_true,
            reduceCtorEq, true_and]
          refine ⟨alike.onDisk true ⟨[], none, some left.raft.takeSnapshot⟩
            ⟨[], none, some right.raft.takeSnapshot⟩ alike.takeSnapshot_eq, ?_⟩
          exact ⟨Option.some_ne_none _, rfl, rfl⟩

theorem replyTo_eq {e : LogEntry} {submitted submitted' : Option KvError × Node}
    (sameEnd : submitted.1 = submitted'.1) (alike : Alike submitted.2 submitted'.2) :
    replyTo e submitted = replyTo e submitted' := by
  unfold replyTo acknowledge
  rw [sameEnd, alike.st]

/-- Every operation but a restart is answered alike, and the nodes stay alike. -/
theorem react (alike : Alike left right) {op : Op} (running : op ≠ .reopen) :
    ∃ left' right', (left.react op).1 = (right.react op).1 ∧
      left.step op = some left' ∧ right.step op = some right' ∧ Alike left' right' ∧
      ((¬ op.Truncates left ∧ Extended left right left' right') ∨ Truncated left' right') := by
  have unmoved := Extended.refl left right
  have sameRequest := alike.request_eq op
  cases requested : op.request left with
  | some request =>
      obtain ⟨e, env⟩ := request
      obtain ⟨sameEnd, stillAlike, extended⟩ := alike.submit e env
      have leftReacts := react_of_request requested
      have rightReacts := react_of_request (sameRequest.symm.trans requested)
      have keeps : ¬ op.Truncates left := by
        rintro ⟨outcome, rfl, _⟩
        cases requested
      refine ⟨_, _, ?_, congrArg Prod.snd leftReacts, congrArg Prod.snd rightReacts, stillAlike,
        Or.inl ⟨keeps, extended⟩⟩
      rw [leftReacts, rightReacts]
      exact stillAlike.replyTo_eq sameEnd
  | none =>
      cases op with
      | put | delete => cases requested
      | reopen => exact absurd rfl running
      | get key =>
          refine ⟨left, right, ?_, rfl, rfl, alike, Or.inl ⟨by simp [Op.Truncates], unmoved⟩⟩
          simp only [Node.react, Node.get, alike.st]
      | list pfx =>
          refine ⟨left, right, ?_, rfl, rfl, alike, Or.inl ⟨by simp [Op.Truncates], unmoved⟩⟩
          simp only [Node.react, Node.list, alike.st]
      | compareAndSwap key value expect env =>
          have leftRefused : left.raft.checkVersion key expect = none :=
            Option.map_eq_none_iff.mp requested
          have rightRefused : right.raft.checkVersion key expect = none :=
            Option.map_eq_none_iff.mp (sameRequest.symm.trans requested)
          refine ⟨left, right, ?_, ?_, ?_, alike, Or.inl ⟨by simp [Op.Truncates], unmoved⟩⟩
          · simp only [Node.react, Node.compareAndSwap, leftRefused, rightRefused]
          · simp only [Node.step, Node.react, Node.compareAndSwap, leftRefused]
          · simp only [Node.step, Node.react, Node.compareAndSwap, rightRefused]
      | electionTimeout =>
          exact ⟨_, _, rfl, rfl, rfl, ⟨alike.config, alike.peers, alike.journalOpen, alike.st,
            alike.snap, alike.numbered⟩, Or.inl ⟨by simp [Op.Truncates], unmoved⟩⟩
      | snapshot outcome =>
          obtain ⟨sameReply, stillAlike, moved⟩ := alike.snapshot outcome
          refine ⟨_, _, sameReply, rfl, rfl, stillAlike, ?_⟩
          split at moved
          · exact Or.inr moved
          · rename_i notTaken
            refine Or.inl ⟨?_, moved⟩
            rintro ⟨_, same, taken⟩
            cases same
            exact notTaken taken

end Alike

/-! ## The continuations that cannot tell -/

/-- The two directories recover alike although their lines differ: a snapshot
covers them and the lines have the same shape. -/
def Settled (left right : Node) : Prop :=
  left.disk.snap ≠ none ∧
    left.disk.journal.map JournalLine.isWhole = right.disk.journal.map JournalLine.isWhole

/-- The right journal starts from `before` and has at most as many lines. -/
def Trails (before : List JournalLine) (left right : Node) : Prop :=
  ∃ added, right.disk.journal = before ++ added ∧
    before.length + added.length ≤ left.disk.journal.length

/-- The first restart of the continuation comes after a successful snapshot, or
finds the journal as it was before the failed call. -/
def Unmarked (before : List JournalLine) : Node → List Op → Prop
  | _, [] => True
  | n, .reopen :: _ => n.disk.journal = before
  | n, .snapshot outcome :: rest =>
      (n.snapshot outcome).1 = .done ∨ Unmarked before (n.snapshot outcome).2 rest
  | n, op :: rest => ∀ next, n.step op = some next → Unmarked before next rest

/-- The two nodes differ in nothing that is ever read again. -/
structure Same (left right : Node) : Prop where
  config : left.cfg = right.cfg
  raft : left.raft = right.raft
  journal : left.disk.journal = right.disk.journal
  snap : left.disk.snap.map RaftSnapshot.content = right.disk.snap.map RaftSnapshot.content

/-! ## Restarts -/

/-- Two directories that decode with the same error, or both without one, both
fail to open or both open. -/
theorem reopen_together {left right : Node} (config : left.cfg = right.cfg)
    (failure : (readJournal left.disk.journal).failure =
      (readJournal right.disk.journal).failure) :
    (∃ err, left.reopen = .error err ∧ right.reopen = .error err) ∨
      ∃ left' right', left.reopen = .ok left' ∧ right.reopen = .ok right' := by
  unfold reopen openOn Raft.openRaft Raft.recover
  rw [config, failure]
  by_cases noID : right.cfg.nodeID = ""
  · simp [noID]
  by_cases noDir : right.cfg.dataDir = ""
  · simp [noID, noDir]
  cases (readJournal right.disk.journal).failure with
  | none => simp [noID, noDir]
  | some err => simp [noID, noDir]

/-- Two nodes that fail to open alike answer a reopening alike, and what is known of the
opened nodes relates the next states. -/
theorem react_reopen {left right : Node} {R : Node → Node → Prop} (config : left.cfg = right.cfg)
    (failure : (readJournal left.disk.journal).failure =
      (readJournal right.disk.journal).failure)
    (related : ∀ left' right', left.reopen = .ok left' → right.reopen = .ok right' →
      R left' right') :
    (left.react .reopen).1 = (right.react .reopen).1 ∧
      Option.Rel R (left.react .reopen).2 (right.react .reopen).2 := by
  rcases reopen_together config failure with
    ⟨err, leftFails, rightFails⟩ | ⟨left', right', leftOpens, rightOpens⟩
  · simp only [Node.react, leftFails, rightFails]
    exact ⟨trivial, .none⟩
  · simp only [Node.react, leftOpens, rightOpens]
    exact ⟨trivial, .some (related left' right' leftOpens rightOpens)⟩

theorem loadSnapshot_of_content {snap snap' : Option RaftSnapshot}
    (content : snap.map RaftSnapshot.content = snap'.map RaftSnapshot.content) (r : Raft) :
    r.loadSnapshot snap = r.loadSnapshot snap' := by
  cases snap with
  | none =>
      rw [Option.map_none, eq_comm, Option.map_eq_none_iff] at content
      rw [content]
  | some taken =>
      obtain ⟨taken', rfl, same⟩ := Option.map_eq_some_iff.mp content.symm
      have sameIndex : taken'.index = taken.index := congrArg Prod.fst same
      have sameState : taken'.state = taken.state := congrArg Prod.snd same
      simp only [Raft.loadSnapshot, sameIndex, sameState]

/-- The memory that a restart builds depends on the journal and on the content
of the snapshot only. -/
theorem same_of_reopen {left right left' right' : Node} (config : left.cfg = right.cfg)
    (journal : left.disk.journal = right.disk.journal)
    (snap : left.disk.snap.map RaftSnapshot.content =
      right.disk.snap.map RaftSnapshot.content)
    (leftOpened : left.reopen = .ok left') (rightOpened : right.reopen = .ok right') :
    Same left' right' := by
  have sameRaft : Raft.openRaft left.cfg (readJournal left.disk.journal) left.disk.snap =
      Raft.openRaft right.cfg (readJournal right.disk.journal) right.disk.snap := by
    unfold Raft.openRaft Raft.recover
    simp only [config, journal, loadSnapshot_of_content snap]
  unfold reopen openOn at leftOpened rightOpened
  rw [sameRaft] at leftOpened
  cases opened : Raft.openRaft right.cfg (readJournal right.disk.journal) right.disk.snap with
  | error err =>
      rw [opened] at leftOpened
      cases leftOpened
  | ok raft =>
      rw [opened] at leftOpened rightOpened
      cases leftOpened
      cases rightOpened
      exact ⟨config, rfl, journal, snap⟩

/-- Behind a snapshot, a restart counts the lines and reads nothing else in them. -/
theorem alike_of_reopen {left right left' right' : Node} (config : left.cfg = right.cfg)
    (settled : Settled left right)
    (snap : left.disk.snap.map RaftSnapshot.content =
      right.disk.snap.map RaftSnapshot.content)
    (leftOpened : left.reopen = .ok left') (rightOpened : right.reopen = .ok right') :
    Alike left' right' ∧ Settled left' right' := by
  obtain ⟨taken, shape⟩ := settled
  obtain ⟨leftCfg, leftDisk, leftRecovered⟩ := recovered_of_openOn leftOpened
  obtain ⟨rightCfg, rightDisk, rightRecovered⟩ := recovered_of_openOn rightOpened
  obtain ⟨found, isFound⟩ := Option.ne_none_iff_exists'.mp taken
  rw [isFound] at leftRecovered snap
  obtain ⟨found', isFound', same⟩ := Option.map_eq_some_iff.mp snap.symm
  rw [isFound'] at rightRecovered
  have sameCore : left'.raft.core = right'.raft.core := by
    rw [leftRecovered.core, rightRecovered.core]
    have sameIndex : found'.index = found.index := congrArg Prod.fst same
    have sameState : found'.state = found.state := congrArg Prod.snd same
    simp only [Raft.recoveredCore, sameIndex, sameState]
  refine ⟨⟨?_, ?_, ?_, congrArg Prod.fst sameCore, ?_, Or.inr ⟨?_, congrArg Prod.snd sameCore⟩⟩,
    ?_, ?_⟩
  · rw [leftCfg, rightCfg, config]
  · rw [leftRecovered.peers, rightRecovered.peers, config]
  · rw [leftRecovered.journalOpen, rightRecovered.journalOpen]
  · rw [leftDisk, rightDisk, isFound]
    exact snap
  · rw [leftRecovered.log, rightRecovered.log]
    exact (readJournal_of_shape shape).1
  · rw [leftDisk]
    exact taken
  · rw [leftDisk, rightDisk]
    exact shape

/-! ## The simulation -/

theorem Same.submit {left right : Node} (same : Same left right) (e : LogEntry)
    (env : WriteEnv) :
    (left.submit e env).1 = (right.submit e env).1 ∧
      Same (left.submit e env).2 (right.submit e env).2 := by
  have leaves (lines : List JournalLine) : Same (left.leaves e lines) (right.leaves e lines) :=
    ⟨same.config, congrArg (Raft.logged · e) same.raft,
      congrArg (· ++ lines) same.journal, same.snap⟩
  rw [submit_eq, submit_eq, same.raft]
  split
  · exact ⟨rfl, leaves []⟩
  · split
    · have left' := leaves [.whole (right.raft.number e)]
      unfold replicate acks
      rw [left'.config, left'.raft]
      split
      · exact ⟨rfl, rfl, rfl, left'.journal, left'.snap⟩
      · split
        · exact ⟨rfl, left'⟩
        · exact ⟨rfl, rfl, rfl, left'.journal, left'.snap⟩
    · exact ⟨rfl, leaves _⟩

theorem Same.snapshot {left right : Node} (same : Same left right)
    (outcome : SnapshotOutcome) :
    (left.snapshot outcome).1 = (right.snapshot outcome).1 ∧
      Same (left.snapshot outcome).2 (right.snapshot outcome).2 := by
  by_cases unwritten : outcome = .writeFailed
  · simp only [Node.snapshot, unwritten, if_true]
    exact ⟨trivial, same⟩
  cases handle : right.raft.journalOpen with
  | false =>
      simp only [Node.snapshot, writeTmp, same.raft, handle, unwritten, if_true, if_false]
      exact ⟨trivial, same.config, rfl, same.journal, same.snap⟩
  | true =>
      simp only [Node.snapshot, writeTmp, closeJournal, renameTmp, truncateJournal, same.raft,
        handle, unwritten, if_false, reduceCtorEq]
      cases outcome with
      | writeFailed | closeFailed | renameFailed =>
          exact ⟨rfl, same.config, rfl, same.journal, same.snap⟩
      | openFailed => exact ⟨rfl, same.config, rfl, same.journal, rfl⟩
      | ok => exact ⟨rfl, same.config, rfl, rfl, rfl⟩

/-- Nodes that differ in nothing that is read answer alike for ever. -/
theorem Same.react {left right : Node} (same : Same left right) (op : Op) :
    (left.react op).1 = (right.react op).1 ∧
      Option.Rel Same (left.react op).2 (right.react op).2 := by
  have write {e : LogEntry} {env : WriteEnv} (requested : op.request left = some (e, env)) :
      (left.react op).1 = (right.react op).1 ∧
        Option.Rel Same (left.react op).2 (right.react op).2 := by
    have requested' : op.request right = some (e, env) := by
      rw [← requested]
      cases op <;> simp only [Op.request, same.raft]
    obtain ⟨sameEnd, stillSame⟩ := same.submit e env
    rw [react_of_request requested, react_of_request requested']
    refine ⟨?_, .some stillSame⟩
    simp only [replyTo, acknowledge, sameEnd, stillSame.raft]
  cases op with
  | put | delete => exact write rfl
  | get key => exact ⟨by simp only [Node.react, Node.get, same.raft], .some same⟩
  | list pfx => exact ⟨by simp only [Node.react, Node.list, same.raft], .some same⟩
  | compareAndSwap key value expect env =>
      cases checked : left.raft.checkVersion key expect with
      | some version => exact write (by simp only [Op.request, checked, Option.map_some]; rfl)
      | none =>
          simp only [Node.react, Node.compareAndSwap, checked, ← same.raft]
          exact ⟨trivial, .some same⟩
  | electionTimeout =>
      refine ⟨rfl, .some ⟨same.config, ?_, same.journal, same.snap⟩⟩
      rw [same.raft, same.config]
  | snapshot outcome =>
      obtain ⟨sameReply, stillSame⟩ := same.snapshot outcome
      exact ⟨sameReply, .some stillSame⟩
  | reopen =>
      have failure : (readJournal left.disk.journal).failure =
          (readJournal right.disk.journal).failure := by rw [same.journal]
      refine react_reopen same.config failure fun left' right' leftOpens rightOpens => ?_
      exact same_of_reopen same.config same.journal same.snap leftOpens rightOpens

theorem Settled.of_extended {left right left' right' : Node} (settled : Settled left right)
    (extended : Extended left right left' right') : Settled left' right' := by
  obtain ⟨taken, shape⟩ := settled
  obtain ⟨keeps, lines, lines', sameShape, leftJournal, rightJournal⟩ := extended
  refine ⟨keeps taken, ?_⟩
  rw [leftJournal, rightJournal, List.map_append, List.map_append, shape, sameShape]

theorem Settled.of_truncated {left right : Node} (truncated : Truncated left right) :
    Settled left right := by
  obtain ⟨taken, leftEmpty, rightEmpty⟩ := truncated
  refine ⟨taken, ?_⟩
  rw [leftEmpty, rightEmpty]

theorem Trails.of_extended {before : List JournalLine} {left right left' right' : Node}
    (trails : Trails before left right) (extended : Extended left right left' right') :
    Trails before left' right' := by
  obtain ⟨added, journal, shorter⟩ := trails
  obtain ⟨_, lines, lines', sameShape, leftJournal, rightJournal⟩ := extended
  have sameLength : lines.length = lines'.length := by
    simpa using congrArg List.length sameShape
  refine ⟨added ++ lines', ?_, ?_⟩
  · rw [rightJournal, journal, List.append_assoc]
  · rw [leftJournal, List.length_append, List.length_append]
    omega

theorem Unmarked.of_step {before : List JournalLine} {n next : Node} {op : Op}
    {rest : List Op} (unmarked : Unmarked before n (op :: rest)) (running : op ≠ .reopen)
    (keeps : ¬ op.Truncates n) (stepped : n.step op = some next) :
    Unmarked before next rest := by
  cases op with
  | reopen => exact absurd rfl running
  | snapshot outcome =>
      cases Option.some.inj stepped
      rcases unmarked with taken | later
      · exact absurd ⟨outcome, rfl, taken⟩ keeps
      · exact later
  | put | delete | compareAndSwap | get | list | electionTimeout =>
      exact unmarked next stepped

/-- The node after the failed call and the node without it, with the operations
still to come. -/
def Indistinct (before : List JournalLine) (left right : Node) (rest : List Op) : Prop :=
  Same left right ∨ (Alike left right ∧ Settled left right) ∨
    (Alike left right ∧ Trails before left right ∧ Unmarked before left rest)

theorem Indistinct.react {before : List JournalLine} {left right : Node} {op : Op}
    {rest : List Op} (indistinct : Indistinct before left right (op :: rest)) :
    (left.react op).1 = (right.react op).1 ∧
      Option.Rel (fun left' right' => Indistinct before left' right' rest)
        (left.react op).2 (right.react op).2 := by
  rcases indistinct with same | ⟨alike, settled⟩ | ⟨alike, trails, unmarked⟩
  · obtain ⟨sameReply, related⟩ := same.react op
    refine ⟨sameReply, ?_⟩
    generalize (left.react op).2 = next at related ⊢
    generalize (right.react op).2 = next' at related ⊢
    cases related with
    | none => exact .none
    | some stillSame => exact .some (Or.inl stillSame)
  · by_cases restart : op = .reopen
    · subst restart
      refine react_reopen alike.config (readJournal_of_shape settled.2).2
        fun left' right' leftOpens rightOpens => Or.inr (Or.inl ?_)
      exact alike_of_reopen alike.config settled alike.snap leftOpens rightOpens
    · obtain ⟨left', right', sameReply, leftSteps, rightSteps, stillAlike, moved⟩ :=
        alike.react restart
      simp only [step] at leftSteps rightSteps
      rw [leftSteps, rightSteps]
      refine ⟨sameReply, .some (Or.inr (Or.inl ⟨stillAlike, ?_⟩))⟩
      rcases moved with ⟨_, extended⟩ | truncated
      · exact settled.of_extended extended
      · exact Settled.of_truncated truncated
  · by_cases restart : op = .reopen
    · subst restart
      -- the journal is the one before the call, so nothing was added on either side
      have unmarked : left.disk.journal = before := unmarked
      obtain ⟨added, journal, shorter⟩ := trails
      rw [unmarked] at shorter
      have nothing : added = [] := List.eq_nil_of_length_eq_zero (by omega)
      have sameJournal : left.disk.journal = right.disk.journal := by
        rw [unmarked, journal, nothing, List.append_nil]
      refine react_reopen alike.config (by rw [sameJournal])
        fun left' right' leftOpens rightOpens => Or.inl ?_
      exact same_of_reopen alike.config sameJournal alike.snap leftOpens rightOpens
    · obtain ⟨left', right', sameReply, leftSteps, rightSteps, stillAlike, moved⟩ :=
        alike.react restart
      have unmarkedNext (keeps : ¬ op.Truncates left) : Unmarked before left' rest :=
        unmarked.of_step restart keeps leftSteps
      simp only [step] at leftSteps rightSteps
      rw [leftSteps, rightSteps]
      refine ⟨sameReply, .some (Or.inr ?_)⟩
      rcases moved with ⟨keeps, extended⟩ | truncated
      · exact Or.inr ⟨stillAlike, trails.of_extended extended, unmarkedNext keeps⟩
      · exact Or.inl ⟨stillAlike, Settled.of_truncated truncated⟩

/-- What a failed write leaves behind: nothing after a mismatch, and otherwise an
entry in the log and some lines in the journal. -/
theorem failed_write {n next : Node} {op : Op} {err : KvError} (writes : op.Writes)
    (failed : n.react op = (.failed err, some next)) :
    (err = .casMismatch ∧ next = n) ∨
      (err ≠ .casMismatch ∧ ∃ e lines, next = n.leaves e lines) := by
  cases requested : op.request n with
  | some request =>
      obtain ⟨e, env⟩ := request
      rw [react_of_request requested] at failed
      obtain ⟨replied, left⟩ := Prod.mk.inj failed
      cases Option.some.inj left
      refine Or.inr ?_
      have submitted := submitted_submit n e env
      unfold replyTo acknowledge at replied
      cases ended : (n.submit e env).1 with
      | none =>
          rw [ended] at replied
          dsimp only at replied
          split at replied <;> cases replied
      | some err' =>
          rw [ended] at replied submitted
          cases Reply.failed.inj replied
          generalize (n.submit e env).2 = next at submitted
          cases submitted with
          | journalClosed | journalFailed | timedOut => exact ⟨by simp, e, _, rfl⟩
  | none =>
      cases op with
      | put | delete => cases requested
      | get | list | snapshot | electionTimeout | reopen => exact absurd writes id
      | compareAndSwap key value expect env =>
          have refused : n.raft.checkVersion key expect = none :=
            Option.map_eq_none_iff.mp requested
          simp only [react, compareAndSwap, refused] at failed
          cases failed
          exact Or.inl ⟨rfl, rfl⟩

/-- A failed write leaves no trace in any later answer, for any number of peers,
when it was a version mismatch, or when the node was ready and the first restart
comes after a successful snapshot or finds the journal as before the call. -/
theorem failed_write_leaves_no_trace {n next : Node} {op : Op} {err : KvError}
    {rest : List Op} (writes : op.Writes) (failed : n.react op = (.failed err, some next))
    (unmarked : err = .casMismatch ∨ (n.raft.Ready ∧ Unmarked n.disk.journal next rest)) :
    answers react next rest = answers react n rest := by
  rcases failed_write writes failed with ⟨_, unchanged⟩ | ⟨other, e, lines, left⟩
  · rw [unchanged]
  · obtain ⟨ready, unmarked⟩ := unmarked.resolve_left other
    refine answers_eq_of_simulation (Indistinct n.disk.journal)
      (fun _ _ _ _ indistinct => indistinct.react) (Or.inr (Or.inr ⟨?_, ?_, unmarked⟩))
    · rw [left]
      exact ⟨rfl, rfl, rfl, rfl, rfl, Or.inl ⟨ready_logged ready e, ready⟩⟩
    · refine ⟨[], (List.append_nil _).symm, ?_⟩
      rw [left]
      simp [leaves]

end Node

/-- A node with two peers besides itself. -/
def clusterConfig : Config :=
  ⟨"n1", "node", "127.0.0.1:1", true, [⟨"n2", "127.0.0.1:2"⟩, ⟨"n3", "127.0.0.1:3"⟩]⟩

def clusterNode : Node :=
  ⟨clusterConfig, (Raft.fresh clusterConfig).bootstrapTerm clusterConfig, .empty⟩

theorem clusterNode_started : Node.Started clusterConfig clusterNode := rfl

namespace Node

theorem failed_write_leaves_no_trace_after_snapshot :
    ∃ next, clusterNode.react (.put "a" [1] ⟨.ok, []⟩) =
        (.failed .replicationTimeout, some next) ∧
      answers react next [.get "a", .snapshot .ok, .reopen, .get "a"] =
        answers react clusterNode [.get "a", .snapshot .ok, .reopen, .get "a"] := by
  have writes : (Op.put "a" [1] ⟨.ok, []⟩).Writes := trivial
  refine ⟨_, rfl, failed_write_leaves_no_trace writes rfl (Or.inr ⟨Nat.le_refl 0, ?_⟩)⟩
  intro next stepped
  cases Option.some.inj stepped
  exact Or.inl rfl

/-- A put that timed out is found by `Get` after the node is closed and opened. -/
theorem timed_out_put_returns_after_restart :
    Started clusterConfig clusterNode ∧
      ∃ next, clusterNode.react (.put "a" [1] ⟨.ok, []⟩) =
          (.failed .replicationTimeout, some next) ∧
        answers react next [.reopen, .get "a"] = [.done, .entry (some ⟨"a", [1], 1, false⟩)] ∧
        answers react clusterNode [.reopen, .get "a"] = [.done, .failed .notFound] :=
  ⟨clusterNode_started, _, rfl, by decide, by decide⟩

end Node

end MiniCloud.Db
