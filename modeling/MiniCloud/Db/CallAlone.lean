import MiniCloud.Db.Concurrent

/-!
# Calls and snapshots that run alone

The concurrent model and the sequential one are made of the same sections.  Here
they are compared: a call whose sections run with nothing in between does to the
node what the operation of the sequential model does and gets the same answer, and
so does a snapshot.
-/

namespace MiniCloud.Db

open MiniCloud.Library

namespace Node

/-- Several sections of one call with nothing in between. -/
def proceeds (n : Node) (e : LogEntry) (env : WriteEnv) (stage : Stage) :
    Nat → Option (LogEntry × Stage × Node)
  | 0 => some (e, stage, n)
  | k + 1 => (n.proceed e env stage).bind fun (e', stage', next) => next.proceeds e' env stage' k

theorem replicate_eq_commit (n : Node) (e : LogEntry) (answered : List String) :
    n.replicate e answered =
      match n.commit e answered with
      | (some err, n) => (some err, n)
      | (none, n) => (none, { n with raft := (n.raft.applyLocked e).applyFromQueue }) := by
  unfold replicate commit
  by_cases single : n.raft.peers.length = 1
  · simp only [if_pos single]
  · simp only [if_neg single]
    split <;> rfl

/-- The sections after the commit, alone, are `applyLocked` and the rest of the call. -/
theorem proceeds_committed (n : Node) (e : LogEntry) (env : WriteEnv) :
    ∃ k, n.proceeds e env .committed k =
      some (e, .returned (acknowledge { n with raft := (n.raft.applyLocked e).applyFromQueue } e),
        { n with raft := (n.raft.applyLocked e).applyFromQueue }) := by
  by_cases passed : e.index ≤ n.raft.lastApplied
  · refine ⟨3, ?_⟩
    simp [proceeds, proceed, Raft.applyLocked, Raft.markApplied, passed]
  · refine ⟨6, ?_⟩
    simp [proceeds, proceed, Raft.applyLocked, Raft.markApplied, passed]

/-- Where a submitted entry ends. -/
def endStage (submitted : Option KvError × Node) (e : LogEntry) : Stage :=
  match submitted.1 with
  | some err => .failed err
  | none => .returned (submitted.2.acknowledge e)

theorem proceeds_succ {n next : Node} {e e' : LogEntry} {env : WriteEnv} {stage stage' : Stage}
    (proceeded : n.proceed e env stage = some (e', stage', next)) (k : Nat) :
    n.proceeds e env stage (k + 1) = next.proceeds e' env stage' k := by
  simp [proceeds, proceeded]

theorem proceed_appended {n next : Node} {e : LogEntry} {env : WriteEnv}
    {err : Option KvError} (written : n.writeJournal e env.write = (err, next)) :
    n.proceed e env .appended = some (e, err.elim .journaled .failed, next) := by
  simp only [proceed, written]
  cases err <;> rfl

theorem proceed_journaled {n next : Node} {e : LogEntry} {env : WriteEnv}
    {err : Option KvError} (committed : n.commit e env.answered = (err, next)) :
    n.proceed e env .journaled = some (e, err.elim .committed .failed, next) := by
  simp only [proceed, committed]
  cases err <;> rfl

/-- All sections of a call, alone, are `submit`. -/
theorem proceeds_submit (n : Node) (e : LogEntry) (env : WriteEnv) :
    ∃ k, n.proceeds e env .built k =
      some (n.raft.number e, endStage (n.submit e env) e, (n.submit e env).2) := by
  have appended : n.proceed e env .built =
      some (n.raft.number e, .appended, { n with raft := n.raft.logged e }) := rfl
  have appends : n.append e env.write =
      (n.raft.number e, ({ n with raft := n.raft.logged e } : Node).writeJournal
        (n.raft.number e) env.write) := rfl
  cases written : ({ n with raft := n.raft.logged e } : Node).writeJournal (n.raft.number e)
      env.write with
  | mk writeError journaled =>
      rw [written] at appends
      have wrote (k : Nat) : n.proceeds e env .built (k + 2) =
          journaled.proceeds (n.raft.number e) env (writeError.elim .journaled .failed) k := by
        rw [proceeds_succ appended, proceeds_succ (proceed_appended written)]
      cases writeError with
      | some err =>
          refine ⟨2, ?_⟩
          rw [wrote]
          simp only [submit, appends]
          rfl
      | none =>
          have submitted : n.submit e env =
              journaled.replicate (n.raft.number e) env.answered := by
            simp only [submit, appends]
          rw [replicate_eq_commit] at submitted
          cases committed : journaled.commit (n.raft.number e) env.answered with
          | mk commitError next =>
              rw [committed] at submitted
              cases commitError with
              | some err =>
                  refine ⟨3, ?_⟩
                  rw [wrote]
                  simp only [Option.elim_none]
                  rw [proceeds_succ (proceed_journaled committed), submitted]
                  rfl
              | none =>
                  obtain ⟨k, finished⟩ := proceeds_committed next (n.raft.number e) env
                  refine ⟨k + 3, ?_⟩
                  rw [wrote]
                  simp only [Option.elim_none]
                  rw [proceeds_succ (proceed_journaled committed)]
                  simp only [Option.elim_none]
                  rw [finished, submitted]
                  rfl

end Node

namespace Call

/-- What the caller has been told, once the call is over. -/
def answer : Call → Option Node.Reply
  | .mismatch _ => some (.failed .casMismatch)
  | .writing _ _ (.returned reply) => some reply
  | .writing _ _ (.failed err) => some (.failed err)
  | .writing _ _ _ => none

end Call

namespace World

theorem execute_proceeds (w : World) (req : Request) {node node' : Node}
    {e e' : LogEntry} {env : WriteEnv} {stage stage' : Stage} {k : Nat}
    (history : List LogEntry)
    (proceeded : node.proceeds e env stage k = some (e', stage', node')) :
    ∃ history', execute step
        { w with
          node := node, calls := w.calls ++ [.writing req e stage], history := history }
        (List.replicate k (.proceed w.calls.length env)) =
      some
        { w with
          node := node', calls := w.calls ++ [.writing req e' stage'], history := history' } := by
  induction k generalizing node e stage history with
  | zero =>
      cases proceeded
      exact ⟨history, rfl⟩
  | succ k ih =>
      obtain ⟨⟨e₁, stage₁, node₁⟩, first, rest⟩ := Option.bind_eq_some_iff.mp proceeded
      obtain ⟨history', reached⟩ :=
        ih (if stage = .marked then history ++ [e] else history) rest
      refine ⟨history', ?_⟩
      rw [List.replicate_succ, execute_cons]
      simp only [step, List.getElem?_concat_length, first, Option.map_some, Option.bind_some]
      rw [List.set_append_right _ _ (Nat.le_refl _)]
      simpa using reached

theorem request_op (req : Request) (n : Node) (env : WriteEnv) :
    (req.op env).request n = (req.build n.raft).map fun e => (e, env) := by
  cases req with
  | put | delete => rfl
  | compareAndSwap key value expect =>
      simp only [Request.op, Op.request, Request.build, Option.map_map]
      rfl

/-- A call that runs alone does to the node what the sequential operation does, and
gets the same answer. -/
theorem call_alone (w : World) (req : Request) (env : WriteEnv) :
    ∃ k next c, execute step w (.call req :: List.replicate k (.proceed w.calls.length env)) =
        some next ∧ next.calls = w.calls ++ [c] ∧
      c.answer = some (w.node.react (req.op env)).1 ∧
      w.node.step (req.op env) = some next.node := by
  have requested := request_op req w.node env
  cases built : req.build w.node.raft with
  | none =>
      cases req with
      | put | delete => cases built
      | compareAndSwap key value expect =>
          have refused : w.node.raft.checkVersion key expect = none :=
            Option.map_eq_none_iff.mp built
          have reacts : w.node.react ((Request.compareAndSwap key value expect).op env) =
              (.failed .casMismatch, some w.node) := by
            simp only [Request.op, Node.react, Node.compareAndSwap, refused]
          refine ⟨0, { w with calls := w.calls ++ [.mismatch (.compareAndSwap key value expect)] },
            .mismatch (.compareAndSwap key value expect), ?_, rfl, ?_, congrArg Prod.snd reacts⟩
          · simp only [List.replicate_zero, execute_cons, step, built, Option.bind_some,
              execute_nil]
          · rw [reacts]
            rfl
  | some e =>
      rw [built, Option.map_some] at requested
      have reacts := Node.react_of_request requested
      obtain ⟨k, proceeded⟩ := w.node.proceeds_submit e env
      obtain ⟨history, reached⟩ := execute_proceeds w req w.history proceeded
      refine ⟨k, { w with
          node := (w.node.submit e env).2
          calls := w.calls ++ [.writing req (w.node.raft.number e)
            (Node.endStage (w.node.submit e env) e)]
          history := history },
        .writing req (w.node.raft.number e) (Node.endStage (w.node.submit e env) e), ?_, rfl, ?_,
        congrArg Prod.snd reacts⟩
      · rw [execute_cons]
        simp only [step, built, Option.bind_some]
        exact reached
      · rw [reacts]
        unfold Node.endStage Node.replyTo
        cases (w.node.submit e env).1 <;> rfl

/-- The file operations of a snapshot up to the first that fails. -/
def fileResults : SnapshotOutcome → List Bool
  | .ok => [true, true, true, true, true, true]
  | .writeFailed => [true, true, false]
  | .closeFailed => [true, true, true, false]
  | .renameFailed => [true, true, true, true, false]
  | .openFailed => [true, true, true, true, true, false]

/-- A snapshot that runs alone does to the node what the sequential one does; a
journal that is closed already stops it at the close. -/
theorem snapshot_alone (w : World) (idle : w.snapper = .idle) (outcome : SnapshotOutcome)
    (reachesClose : w.node.raft.journalOpen = true ∨ outcome = .writeFailed ∨
      outcome = .closeFailed) :
    ∃ next, execute step w ((fileResults outcome).map .snap) = some next ∧
      next.node = (w.node.snapshot outcome).2 ∧ next.snapper = .idle ∧ next.calls = w.calls := by
  obtain ⟨node, calls, snapper, history, seen, saved⟩ := w
  cases idle
  cases handle : node.raft.journalOpen with
  | true =>
      have opened : node = { node with raft.journalOpen := true } := by rw [← handle]
      rw [opened]
      cases outcome with
      | ok => exact ⟨_, rfl, rfl, rfl, rfl⟩
      | writeFailed => exact ⟨_, rfl, rfl, rfl, rfl⟩
      | closeFailed => exact ⟨_, rfl, rfl, rfl, rfl⟩
      | renameFailed => exact ⟨_, rfl, rfl, rfl, rfl⟩
      | openFailed => exact ⟨_, rfl, rfl, rfl, rfl⟩
  | false =>
      have closed : node = { node with raft.journalOpen := false } := by rw [← handle]
      rcases reachesClose with opened | rfl | rfl
      · rw [handle] at opened
        cases opened
      · exact ⟨_, rfl, rfl, rfl, rfl⟩
      · rw [closed]
        exact ⟨_, rfl, rfl, rfl, rfl⟩

end World

end MiniCloud.Db
