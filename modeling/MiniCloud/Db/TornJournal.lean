import MiniCloud.Db.JournalText
import MiniCloud.Db.Refinement
import MiniCloud.Db.SnapshotRecovery

/-!
# Opening a journal that a crash has cut off

A node whose writes were all acknowledged is stopped while it writes one more
line, and the journal ends in an arbitrary proper part of that line.  The
decoding loop of `recover` stops quietly at `io.EOF` only; inside a value the
decoder answers `io.ErrUnexpectedEOF`, which `errors.Is(err, io.EOF)` does not
match, so the store does not open.  When only the newline is missing, the line
is complete JSON and the write takes effect although nobody acknowledged it.
-/

namespace MiniCloud.Db

open MiniCloud.Library

def Op.isSnapshot : Op → Bool
  | .snapshot _ => true
  | _ => false

namespace Node

/-- No snapshot is taken, and no write fails. -/
def Acknowledging (n : Node) (op : Op) : Prop :=
  op.isSnapshot = false ∧ (n.react op).1 ≠ .failed .journal ∧
    (n.react op).1 ≠ .failed .replicationTimeout

instance (n : Node) (op : Op) : Decidable (n.Acknowledging op) :=
  inferInstanceAs (Decidable (_ ∧ _))

theorem Replayable.transition {cfg : Config} {n next : Node} {op : Op} {reply : Reply}
    (replayable : Replayable cfg n) (kept : op.isSnapshot = false)
    (journaled : reply ≠ .failed .journal) (replicated : reply ≠ .failed .replicationTimeout)
    (transition : Transition n op reply next) : Replayable cfg next := by
  cases transition with
  | get => exact replayable
  | list => exact replayable
  | mismatch => exact replayable
  | failed request submitted =>
      cases submitted with
      | journalClosed => exact absurd rfl journaled
      | journalFailed => exact absurd rfl journaled
      | timedOut => exact absurd rfl replicated
  | acknowledged request submitted =>
      cases submitted with
      | acknowledged opened written quorum commitIndex =>
          exact replayable.accepts _ commitIndex
  | snapshot outcome => cases kept
  | electionTimeout => exact replayable.electionTimeout n.cfg.nodeID
  | reopen opened => exact (replayable.opened opened).1

theorem Replayable.of_run {cfg : Config} {start n : Node} {ops : List Op}
    (started : Started cfg start) (guarded : Guarded step Acknowledging start ops)
    (reached : execute step start ops = some n) : Replayable cfg n := by
  refine invariant_of_guarded step (Replayable cfg) ?_ (Replayable.started started).1 guarded
    reached
  intro state op next replayable acknowledging stepped
  obtain ⟨kept, journaled, replicated⟩ := acknowledging
  have transition : Transition state op (state.react op).1 next :=
    transition_of_react (Prod.ext rfl stepped)
  exact replayable.transition kept journaled replicated transition

/-- Opening a directory whose journal holds these bytes gives the map back. -/
def RecoversFrom (n : Node) (format : JournalFormat) (bytes : Bytes) : Prop :=
  ∃ r, Raft.openRaft n.cfg (format.decodeAll bytes) n.disk.snap = .ok r ∧
    r.st.entries.view = n.view

/-- Without a snapshot the map is given back exactly when the bytes decode and
their replay is that map. -/
theorem Replayable.recoversFrom_iff {cfg : Config} {n : Node} (replayable : Replayable cfg n)
    (hasID : cfg.nodeID ≠ "") (hasDir : cfg.dataDir ≠ "") (format : JournalFormat)
    (bytes : Bytes) :
    n.RecoversFrom format bytes ↔ (format.decodeAll bytes).failure = none ∧
      ((format.decodeAll bytes).entries.foldl Raft.applyCore (.empty, 0)).1.entries.view =
        n.view := by
  unfold RecoversFrom
  rw [replayable.config, replayable.noSnapshot]
  have core {r : Raft} (opened : Raft.openRaft cfg (format.decodeAll bytes) none = .ok r) :
      r.st.entries.view =
        ((format.decodeAll bytes).entries.foldl Raft.applyCore (.empty, 0)).1.entries.view :=
    congrArg (fun c => c.1.entries.view) (Raft.recovered_of_openRaft opened).core
  constructor
  · rintro ⟨r, opened, same⟩
    have decodable := (Raft.openRaft_isOk_iff _ _ _).mp ⟨r, opened⟩
    exact ⟨decodable.2.2, (core opened).symm.trans same⟩
  · rintro ⟨decodable, same⟩
    obtain ⟨r, opened⟩ := (Raft.openRaft_isOk_iff cfg _ none).mpr ⟨hasID, hasDir, decodable⟩
    exact ⟨r, opened, (core opened).trans same⟩

/-- The next entry of a replayable node is never skipped. -/
theorem Replayable.view_next {cfg : Config} {n : Node} (replayable : Replayable cfg n)
    (e : LogEntry) :
    ((n.raft.log ++ [n.raft.number e]).foldl Raft.applyCore (.empty, 0)).1.entries.view =
      Function.update n.view e.key e.effect := by
  have ahead : ¬ (n.raft.number e).index ≤ n.raft.core.2 := by
    rw [Raft.number_index]
    exact Nat.not_le_of_lt (Nat.lt_succ_of_le (Nat.le_of_eq replayable.applied))
  rw [List.foldl_append, ← replayable.core, List.foldl_cons, List.foldl_nil, Raft.applyCore,
    if_neg ahead]
  exact Store.view_apply n.raft.st (n.raft.number e)

/-- Take any run from an empty directory without snapshots in which every write
was acknowledged, and a crash that leaves a proper part of one further line
behind the complete lines.  The directory opens with the map of the acknowledged
writes exactly when no byte of the further line was written, or all of them but
the newline, and then only if the further entry would have changed nothing. -/
theorem torn_journal_recovers_iff {cfg : Config} {start n : Node} {ops : List Op}
    (started : Started cfg start) (guarded : Guarded step Acknowledging start ops)
    (reached : execute step start ops = some n) {entries : List LogEntry}
    (complete : n.disk.journal = entries.map .whole) (format : JournalFormat) (e : LogEntry)
    {part missing : Bytes} (split : format.line (n.raft.number e) = part ++ missing)
    (cut : missing ≠ []) :
    n.RecoversFrom format (format.lines entries ++ part) ↔
      part = [] ∨ part = format.encode (n.raft.number e) ∧ e.effect = n.view e.key := by
  have replayable := Replayable.of_run started guarded reached
  obtain ⟨hasID, hasDir⟩ := configured_of_openOn started
  have sameLog : entries = n.raft.log := by
    refine List.map_injective_iff.mpr ?_ (complete.symm.trans replayable.journal)
    intro first second same
    exact JournalLine.whole.inj same
  subst sameLog
  rw [replayable.recoversFrom_iff hasID hasDir, JournalFormat.decodeAll_eq_readJournal split cut,
    JournalFormat.readJournal_append]
  by_cases nothing : part = []
  · have untouched : format.cutLine (n.raft.number e) part = [] := if_pos nothing
    rw [untouched]
    simp only [readJournal, List.append_nil, nothing, true_or, iff_true, true_and]
    rw [← replayable.core]
    rfl
  by_cases whole : part = format.encode (n.raft.number e)
  · have finished : format.cutLine (n.raft.number e) part = [.whole (n.raft.number e)] := by
      rw [JournalFormat.cutLine, if_neg nothing, if_pos whole]
    rw [finished]
    simp only [readJournal, replayable.view_next, Function.update_eq_self_iff, nothing, true_and,
      false_or, and_iff_right whole]
  · have torn : format.cutLine (n.raft.number e) part = [.torn (n.raft.number e)] := by
      rw [JournalFormat.cutLine, if_neg nothing, if_neg whole]
    rw [torn]
    simp [readJournal, nothing, whole]

theorem torn_journal_recovers_iff_missing_newline :
    ∃ n, execute step testNode [.put "a" [1] ⟨.ok, []⟩] = some n ∧
      n.RecoversFrom .json (JournalFormat.json.lines [⟨1, 1, .put, "a", [1], 1⟩] ++
        JournalFormat.json.encode ⟨2, 1, .del, "b", [], 0⟩) := by
  have guarded : Guarded step Acknowledging testNode [.put "a" [1] ⟨.ok, []⟩] :=
    guarded_of_check step (by decide)
  refine ⟨_, rfl, ?_⟩
  exact (torn_journal_recovers_iff testNode_started guarded rfl rfl .json ⟨0, 0, .del, "b", [], 0⟩
    rfl (List.cons_ne_nil newline [])).mpr (Or.inr ⟨rfl, rfl⟩)

/-- One byte of a further line keeps the store from opening. -/
theorem first_byte_blocks_restart :
    ∃ n missing, execute step testNode [.put "a" [1] ⟨.ok, []⟩] = some n ∧
      n.disk.journal = [.whole ⟨1, 1, .put, "a", [1], 1⟩] ∧
      JournalFormat.json.line (n.raft.number ⟨0, 0, .put, "b", [2], 1⟩) = [123] ++ missing ∧
      missing ≠ [] ∧
      (∀ snap, Raft.openRaft n.cfg (JournalFormat.json.decodeAll
          (JournalFormat.json.lines [⟨1, 1, .put, "a", [1], 1⟩] ++ [123])) snap =
        .error (.recover .unexpectedEOF)) ∧
      ¬ n.RecoversFrom .json
        (JournalFormat.json.lines [⟨1, 1, .put, "a", [1], 1⟩] ++ [123]) := by
  have decoded : JournalFormat.json.decodeAll
      (JournalFormat.json.lines [⟨1, 1, .put, "a", [1], 1⟩] ++ [123]) =
        ⟨[⟨1, 1, .put, "a", [1], 1⟩], some .unexpectedEOF⟩ := by
    decide +kernel
  obtain ⟨rest, written⟩ : ∃ rest,
      JournalFormat.json.encode ⟨2, 1, .put, "b", [2], 1⟩ = 123 :: rest := ⟨_, rfl⟩
  have refused (snap : Option RaftSnapshot) : Raft.openRaft testConfig (JournalFormat.json.decodeAll
      (JournalFormat.json.lines [⟨1, 1, .put, "a", [1], 1⟩] ++ [123])) snap =
        .error (.recover .unexpectedEOF) := by
    rw [decoded]
    rfl
  refine ⟨_, rest ++ [newline], rfl, rfl, congrArg (· ++ [newline]) written, by simp, refused, ?_⟩
  rintro ⟨r, opened, _⟩
  cases (refused _).symm.trans opened

end Node

end MiniCloud.Db
