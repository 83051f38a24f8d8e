import MiniCloud.Db.Transitions
import MiniCloud.Library.Slots

/-!
# Concurrent calls and the snapshotter

Clients call `Put`, `Delete` and `CompareAndSwap` concurrently while the run loop
takes snapshots.  Each call is a sequence of critical sections, the ones that the
sequential operations are made of, and a schedule picks at every step the call
that executes its next section, or the snapshotter.  Three lists that the program
does not have record what happened: the entries in the order in which they reached
the store, the part of that order which the snapshotter copied last, and the part
that `snap.json` holds.
-/

namespace MiniCloud.Db

open MiniCloud.Library

/-- The write operations of the `KV` interface. -/
inductive Request where
  | put (key : String) (value : Bytes)
  | delete (key : String)
  | compareAndSwap (key : String) (value : Bytes) (expect : Nat)
  deriving DecidableEq, Repr

namespace Request

/-- The version read or check at the start of a call, which builds the entry. -/
def build (r : Raft) : Request → Option LogEntry
  | .put key value => some ⟨0, 0, .put, key, value, r.nextVersion key⟩
  | .delete key => some ⟨0, 0, .del, key, [], 0⟩
  | .compareAndSwap key value expect =>
      (r.checkVersion key expect).map fun version => ⟨0, 0, .put, key, value, version⟩

/-- The same call as an operation of the sequential model. -/
def op (env : WriteEnv) : Request → Op
  | .put key value => .put key value env
  | .delete key => .delete key env
  | .compareAndSwap key value expect => .compareAndSwap key value expect env

end Request

/-- How far a call has got after its version read. -/
inductive Stage where
  | built
  | appended
  | journaled
  | committed
  | marked
  | updated
  | observed (ev : Option Entry)
  | applied
  | drained
  | returned (reply : Node.Reply)
  | failed (err : KvError)
  deriving DecidableEq, Repr

/-- A call: refused by the version check, or writing its entry. -/
inductive Call where
  | mismatch (req : Request)
  | writing (req : Request) (e : LogEntry) (stage : Stage)
  deriving DecidableEq, Repr

/-- How far the snapshotter has got. -/
inductive SnapStage where
  | idle
  | copied (st : Store)
  | built (snap : RaftSnapshot)
  | written
  | closed
  | renamed

namespace Node

/-- The part of `replicate` before `applyLocked`. -/
def commit (n : Node) (e : LogEntry) (answered : List String) : Option KvError × Node :=
  if n.raft.peers.length = 1 then (none, { n with raft := n.raft.setCommit e.index })
  else if n.acks answered < n.raft.peers.length / 2 + 1 then (some .replicationTimeout, n)
  else
    let commitIndex := if n.raft.commitIndex < e.index then e.index else n.raft.commitIndex
    (none, { n with raft := n.raft.setCommit commitIndex })

/-- The next section of a call. -/
def proceed (n : Node) (e : LogEntry) (env : WriteEnv) :
    Stage → Option (LogEntry × Stage × Node)
  | .built =>
      let (e, raft) := n.raft.appendLog e
      some (e, .appended, { n with raft := raft })
  | .appended =>
      match n.writeJournal e env.write with
      | (some err, n) => some (e, .failed err, n)
      | (none, n) => some (e, .journaled, n)
  | .journaled =>
      match n.commit e env.answered with
      | (some err, n) => some (e, .failed err, n)
      | (none, n) => some (e, .committed, n)
  | .committed =>
      match n.raft.markApplied e with
      | none => some (e, .applied, n)
      | some raft => some (e, .marked, { n with raft := raft })
  | .marked => some (e, .updated, { n with raft := n.raft.updateStore e })
  | .updated => some (e, .observed (n.raft.eventOf e), n)
  | .observed ev => some (e, .applied, { n with raft := n.raft.enqueue ev })
  | .applied => some (e, .drained, { n with raft := n.raft.applyFromQueue })
  | .drained => some (e, .returned (n.acknowledge e), n)
  | .returned _ => none
  | .failed _ => none

/-- The next step of the snapshotter, when its file operation succeeds or not. -/
def snapProceed (n : Node) (ok : Bool) : SnapStage → SnapStage × Node
  | .idle => (.copied n.raft.st, n)
  | .copied st => (.built ⟨n.raft.currentTerm, st.version, st.entries⟩, n)
  | .built snap => if ok then (.written, n.writeTmp snap) else (.idle, n)
  | .written =>
      if n.raft.journalOpen = false then (.idle, n)
      else if ok then (.closed, n.closeJournal) else (.idle, n.closeJournal)
  | .closed => if ok then (.renamed, n.renameTmp) else (.idle, n)
  | .renamed => if ok then (.idle, n.truncateJournal) else (.idle, n)

end Node

/-- The shared node, the calls so far in the order of their version reads, the
snapshotter, and the record of what happened. -/
structure World where
  node : Node
  calls : List Call
  snapper : SnapStage
  /-- The entries in the order in which they reached the store. -/
  history : List LogEntry
  /-- The history at the last copy of the store. -/
  seen : List LogEntry
  /-- The history that `snap.json` holds. -/
  saved : List LogEntry

inductive Act where
  | call (req : Request)
  | proceed (i : Nat) (env : WriteEnv)
  | snap (ok : Bool)
  | electionTimeout
  deriving DecidableEq, Repr

/-- The entry of a call that returned without an error. -/
def Call.succeeded : Call → Option LogEntry
  | .writing _ e (.returned _) => some e
  | _ => none

namespace World

/-- A node with no call in progress. -/
def boot (n : Node) : World := ⟨n, [], .idle, [], [], []⟩

def step (w : World) : Act → Option World
  | .call req =>
      match req.build w.node.raft with
      | none => some { w with calls := w.calls ++ [.mismatch req] }
      | some e => some { w with calls := w.calls ++ [.writing req e .built] }
  | .proceed i env =>
      match w.calls[i]? with
      | some (.writing req e stage) =>
          (w.node.proceed e env stage).map fun (e', stage', node) =>
            { w with
              node := node
              calls := w.calls.set i (.writing req e' stage')
              history := if stage = .marked then w.history ++ [e] else w.history }
      | _ => none
  | .snap ok =>
      let (snapper, node) := w.node.snapProceed ok w.snapper
      some
        { w with
          node := node
          snapper := snapper
          seen := match w.snapper with
            | .idle => w.history
            | _ => w.seen
          saved := match w.snapper, snapper with
            | .closed, .renamed => w.seen
            | _, _ => w.saved }
  | .electionTimeout =>
      some { w with node := { w.node with raft := w.node.raft.electionTimeout w.node.cfg.nodeID } }

/-- All sections of a call on a single node, with nothing in between. -/
def finishCall (i : Nat) : List Act := List.replicate 9 (.proceed i ⟨.ok, []⟩)

end World

/-! ## Inverting one step -/

namespace Node

/-- Everything one section of a call can do: the entry, the stage and the node
after it. -/
inductive Section (n : Node) (e : LogEntry) (env : WriteEnv) :
    Stage → LogEntry → Stage → Node → Prop where
  | append : Section n e env .built (n.raft.number e) .appended
      { n with raft := n.raft.logged e }
  | journal (opened : n.raft.journalOpen = true) (written : env.write = .ok) :
      Section n e env .appended e .journaled
        { n with disk.journal := n.disk.journal ++ [.whole e] }
  | journalFailed (lines : List JournalLine) (left : lines = [] ∨ lines = env.write.leaves e) :
      Section n e env .appended e (.failed .journal)
        { n with disk.journal := n.disk.journal ++ lines }
  | commit (commitIndex : Nat) : Section n e env .journaled e .committed
      { n with raft := n.raft.setCommit commitIndex }
  | timeout : Section n e env .journaled e (.failed .replicationTimeout) n
  | skip (passed : e.index ≤ n.raft.lastApplied) : Section n e env .committed e .applied n
  | mark (ahead : n.raft.lastApplied < e.index) : Section n e env .committed e .marked
      { n with raft := { n.raft with lastApplied := e.index } }
  | update : Section n e env .marked e .updated { n with raft := n.raft.updateStore e }
  | observe : Section n e env .updated e (.observed (n.raft.eventOf e)) n
  | enqueue (ev : Option Entry) : Section n e env (.observed ev) e .applied
      { n with raft := n.raft.enqueue ev }
  | drain : Section n e env .applied e .drained { n with raft := n.raft.applyFromQueue }
  | finish : Section n e env .drained e (.returned (n.acknowledge e)) n

theorem section_of_proceed {n next : Node} {e e' : LogEntry} {env : WriteEnv}
    {stage stage' : Stage} (proceeded : n.proceed e env stage = some (e', stage', next)) :
    Section n e env stage e' stage' next := by
  cases stage with
  | built =>
      cases proceeded
      exact .append
  | appended =>
      have unwritten : Section n e env .appended e (.failed .journal) n := by
        have nothing : Section n e env .appended e (.failed .journal)
            { n with disk.journal := n.disk.journal ++ [] } := .journalFailed [] (Or.inl rfl)
        rwa [List.append_nil] at nothing
      simp only [proceed, writeJournal] at proceeded
      by_cases closed : n.raft.journalOpen = false
      · rw [if_pos closed] at proceeded
        cases proceeded
        exact unwritten
      · have opened : n.raft.journalOpen = true := by simpa using closed
        rw [if_neg closed] at proceeded
        cases outcome : env.write with
        | ok =>
            rw [outcome] at proceeded
            cases proceeded
            exact .journal opened outcome
        | lost =>
            rw [outcome] at proceeded
            cases proceeded
            exact unwritten
        | torn | unsynced =>
            rw [outcome] at proceeded
            cases proceeded
            exact .journalFailed _ (Or.inr (by rw [outcome]; rfl))
  | journaled =>
      simp only [proceed, commit] at proceeded
      by_cases single : n.raft.peers.length = 1
      · rw [if_pos single] at proceeded
        cases proceeded
        exact .commit _
      · rw [if_neg single] at proceeded
        by_cases tooFew : n.acks env.answered < n.raft.peers.length / 2 + 1
        · rw [if_pos tooFew] at proceeded
          cases proceeded
          exact .timeout
        · rw [if_neg tooFew] at proceeded
          cases proceeded
          exact .commit _
  | committed =>
      simp only [proceed, Raft.markApplied] at proceeded
      by_cases passed : e.index ≤ n.raft.lastApplied
      · rw [if_pos passed] at proceeded
        cases proceeded
        exact .skip passed
      · rw [if_neg passed] at proceeded
        cases proceeded
        exact .mark (Nat.lt_of_not_le passed)
  | marked =>
      cases proceeded
      exact .update
  | updated =>
      cases proceeded
      exact .observe
  | observed ev =>
      cases proceeded
      exact .enqueue ev
  | applied =>
      cases proceeded
      exact .drain
  | drained =>
      cases proceeded
      exact .finish
  | returned | failed => cases proceeded

end Node

namespace World

/-- Everything one step can do to the world. -/
inductive Transition (w : World) : Act → World → Prop where
  | refused {req : Request} (mismatch : req.build w.node.raft = none) :
      Transition w (.call req) { w with calls := w.calls ++ [.mismatch req] }
  | called {req : Request} {e : LogEntry} (built : req.build w.node.raft = some e) :
      Transition w (.call req) { w with calls := w.calls ++ [.writing req e .built] }
  | ran {i : Nat} {env : WriteEnv} {req : Request} {e e' : LogEntry} {stage stage' : Stage}
      {node : Node} (current : w.calls[i]? = some (.writing req e stage))
      (ran : Node.Section w.node e env stage e' stage' node) :
      Transition w (.proceed i env)
        { w with
          node := node
          calls := w.calls.set i (.writing req e' stage')
          history := if stage = .marked then w.history ++ [e] else w.history }
  | copied {ok : Bool} (stage : w.snapper = .idle) :
      Transition w (.snap ok) { w with snapper := .copied w.node.raft.st, seen := w.history }
  | built {ok : Bool} {st : Store} (stage : w.snapper = .copied st) :
      Transition w (.snap ok)
        { w with snapper := .built ⟨w.node.raft.currentTerm, st.version, st.entries⟩ }
  | written {snap : RaftSnapshot} (stage : w.snapper = .built snap) :
      Transition w (.snap true) { w with snapper := .written, node := w.node.writeTmp snap }
  | closed (stage : w.snapper = .written) :
      Transition w (.snap true) { w with snapper := .closed, node := w.node.closeJournal }
  | renamed (stage : w.snapper = .closed) :
      Transition w (.snap true)
        { w with snapper := .renamed, node := w.node.renameTmp, saved := w.seen }
  | truncated (stage : w.snapper = .renamed) :
      Transition w (.snap true) { w with snapper := .idle, node := w.node.truncateJournal }
  | gaveUp {ok : Bool} (opened : Bool) :
      Transition w (.snap ok)
        { w with snapper := .idle, node := { w.node with raft.journalOpen := opened } }
  | electionTimeout :
      Transition w .electionTimeout
        { w with node := { w.node with raft := w.node.raft.electionTimeout w.node.cfg.nodeID } }

theorem transition_of_snap (w : World) {ok : Bool} {next : World}
    (stepped : w.step (.snap ok) = some next) : Transition w (.snap ok) next := by
  obtain ⟨node, calls, snapper, history, seen, saved⟩ := w
  have unchanged : Transition ⟨node, calls, snapper, history, seen, saved⟩ (.snap ok)
      ⟨node, calls, .idle, history, seen, saved⟩ := .gaveUp node.raft.journalOpen
  cases snapper with
  | idle =>
      cases Option.some.inj stepped
      exact .copied rfl
  | copied st =>
      cases Option.some.inj stepped
      exact .built rfl
  | built snap =>
      cases ok with
      | true =>
          cases Option.some.inj stepped
          exact .written rfl
      | false =>
          cases Option.some.inj stepped
          exact unchanged
  | written =>
      simp only [step, Node.snapProceed] at stepped
      by_cases closed : node.raft.journalOpen = false
      · rw [if_pos closed] at stepped
        cases Option.some.inj stepped
        exact unchanged
      · rw [if_neg closed] at stepped
        cases ok with
        | true =>
            cases Option.some.inj stepped
            exact .closed rfl
        | false =>
            cases Option.some.inj stepped
            exact .gaveUp false
  | closed =>
      cases ok with
      | true =>
          cases Option.some.inj stepped
          exact .renamed rfl
      | false =>
          cases Option.some.inj stepped
          exact unchanged
  | renamed =>
      cases ok with
      | true =>
          cases Option.some.inj stepped
          exact .truncated rfl
      | false =>
          cases Option.some.inj stepped
          exact unchanged

theorem transition_of_step {w next : World} {act : Act} (stepped : w.step act = some next) :
    Transition w act next := by
  cases act with
  | call req =>
      simp only [step] at stepped
      split at stepped
      · rename_i mismatch
        cases Option.some.inj stepped
        exact .refused mismatch
      · rename_i e built
        cases Option.some.inj stepped
        exact .called built
  | proceed i env =>
      simp only [step] at stepped
      split at stepped
      · rename_i req e stage current
        obtain ⟨⟨e', stage', node⟩, proceeded, same⟩ := Option.map_eq_some_iff.mp stepped
        cases same
        exact .ran current (Node.section_of_proceed proceeded)
      · cases stepped
  | snap ok => exact transition_of_snap w stepped
  | electionTimeout =>
      cases Option.some.inj stepped
      exact .electionTimeout

end World

/-! ## What the sections change -/

/-- Whether the entry has yet to reach the store, has reached it, or never will. -/
inductive Phase where
  | pending
  | stored
  | failed
  deriving DecidableEq, Repr

def Stage.phase : Stage → Phase
  | .built | .appended | .journaled | .committed | .marked => .pending
  | .updated | .observed _ | .applied | .drained | .returned _ => .stored
  | .failed _ => .failed

/-- The entry of a call that has its place in the log. -/
def Call.numbered : Call → Option LogEntry
  | .mismatch _ => none
  | .writing _ e stage => if stage = .built then none else some e

/-- The entry of a call that is in the given phase. -/
def Call.inPhase (phase : Phase) : Call → Option LogEntry
  | .mismatch _ => none
  | .writing _ e stage => if stage.phase = phase then some e else none

theorem inPhase_writing {req : Request} {e found : LogEntry} {stage : Stage} {phase : Phase} :
    (Call.writing req e stage).inPhase phase = some found ↔ stage.phase = phase ∧ e = found := by
  simp [Call.inPhase]

namespace Node.Section

variable {n node : Node} {e e' : LogEntry} {env : WriteEnv} {stage stage' : Stage}

/-- Only the first section touches the log, and it numbers the entry. -/
theorem log_cases (ran : Section n e env stage e' stage' node) :
    (stage = .built ∧ e' = n.raft.number e ∧ node.raft.log = n.raft.log ++ [e']) ∨
      (stage ≠ .built ∧ e' = e ∧ node.raft.log = n.raft.log) := by
  cases ran with
  | append => exact Or.inl ⟨rfl, rfl, rfl⟩
  | journal | journalFailed | commit | timeout | skip | mark | update | observe | enqueue
    | drain | finish => exact Or.inr ⟨by simp, rfl, rfl⟩

theorem stage_ne_built (ran : Section n e env stage e' stage' node) : stage' ≠ .built := by
  cases ran <;> simp

/-- A section keeps what the entry says. -/
theorem entry_eq (ran : Section n e env stage e' stage' node) :
    e'.op = e.op ∧ e'.key = e.key ∧ e'.version = e.version := by
  rcases ran.log_cases with ⟨_, rfl, _⟩ | ⟨_, rfl, _⟩
  · exact ⟨rfl, rfl, rfl⟩
  · exact ⟨rfl, rfl, rfl⟩

/-- Only the update touches the store; the guard of `applyLocked` is the only way
past it. -/
theorem store_cases (ran : Section n e env stage e' stage' node) :
    (stage = .marked ∧ stage' = .updated ∧ e' = e ∧ node.raft.st = n.raft.st.apply e) ∨
      (stage ≠ .marked ∧ node.raft.st = n.raft.st ∧
        (stage'.phase = stage.phase ∨ stage'.phase = .failed ∨
          (stage = .committed ∧ e.index ≤ n.raft.lastApplied))) := by
  cases ran with
  | update => exact Or.inl ⟨rfl, rfl, rfl, rfl⟩
  | append | journal | commit | mark | observe | enqueue | drain | finish =>
      exact Or.inr ⟨by simp, rfl, Or.inl rfl⟩
  | journalFailed | timeout => exact Or.inr ⟨by simp, rfl, Or.inr (Or.inl rfl)⟩
  | skip passed => exact Or.inr ⟨by simp, rfl, Or.inr (Or.inr ⟨rfl, passed⟩)⟩

/-- Past the store, a section keeps the entry. -/
theorem entry_of_stored (ran : Section n e env stage e' stage' node)
    (wasStored : stage.phase = .stored) : e' = e := by
  rcases ran.log_cases with ⟨rfl, _, _⟩ | ⟨_, same, _⟩
  · cases wasStored
  · exact same

/-- Only the guard of `applyLocked` moves the applied index. -/
theorem applied_cases (ran : Section n e env stage e' stage' node) :
    (stage = .committed ∧ stage' = .marked ∧ e' = e ∧ n.raft.lastApplied < e.index ∧
        node.raft.lastApplied = e.index) ∨
      (stage' ≠ .marked ∧ node.raft.lastApplied = n.raft.lastApplied) := by
  cases ran with
  | mark ahead => exact Or.inl ⟨rfl, rfl, rfl, ahead, rfl⟩
  | append | journal | journalFailed | commit | timeout | skip | update | observe | enqueue
    | drain | finish => exact Or.inr ⟨by simp, rfl⟩

/-- Only the journal write touches the data directory. -/
theorem disk_cases (ran : Section n e env stage e' stage' node) :
    (stage = .appended ∧ stage' = .journaled ∧ e' = e ∧
        node.disk = { n.disk with journal := n.disk.journal ++ [.whole e] }) ∨
      (stage'.phase = .failed ∧ ∃ lines, (lines = [] ∨ lines = env.write.leaves e) ∧
        node.disk = { n.disk with journal := n.disk.journal ++ lines }) ∨
      (stage' ≠ .journaled ∧ node.disk = n.disk) := by
  cases ran with
  | journal => exact Or.inl ⟨rfl, rfl, rfl, rfl⟩
  | journalFailed lines left => exact Or.inr (Or.inl ⟨rfl, lines, left, rfl⟩)
  | timeout => exact Or.inr (Or.inl ⟨rfl, [], Or.inl rfl, by rw [List.append_nil]⟩)
  | append | commit | skip | mark | update | observe | enqueue | drain | finish =>
      exact Or.inr (Or.inr ⟨by simp, rfl⟩)

/-- The line of an entry is written whole in the section behind the append, or not at all. -/
theorem line_cases (ran : Section n e env stage e' stage' node) (whole : env.write ≠ .torn) :
    node.disk = n.disk ∨
      (stage = .appended ∧
        node.disk = { n.disk with journal := n.disk.journal ++ [.whole e] }) := by
  cases ran with
  | journal => exact Or.inr ⟨rfl, rfl⟩
  | journalFailed lines left =>
      rcases left with rfl | rfl
      · exact Or.inl (by rw [List.append_nil])
      · cases outcome : env.write with
        | torn => exact absurd outcome whole
        | lost => exact Or.inl (by rw [WriteOutcome.leaves, List.append_nil])
        | ok | unsynced => exact Or.inr ⟨rfl, rfl⟩
  | append | commit | timeout | skip | mark | update | observe | enqueue | drain | finish =>
      exact Or.inl rfl

theorem phase_of_stored (ran : Section n e env stage e' stage' node)
    (wasStored : stage.phase = .stored) : stage'.phase = .stored := by
  cases ran with
  | append | journal | journalFailed | commit | timeout | skip | mark | update => cases wasStored
  | observe | enqueue | drain | finish => rfl

end Node.Section

namespace World

/-- The call, if it is about to pass the guard of `applyLocked`, is not dropped. -/
def NotPassed (w : World) (i : Nat) : Prop :=
  match w.calls[i]? with
  | some (.writing _ e .committed) => w.node.raft.lastApplied < e.index
  | _ => True

instance (w : World) (i : Nat) : Decidable (w.NotPassed i) := by
  unfold NotPassed
  split <;> infer_instance

theorem NotPassed.lt {w : World} {i : Nat} {req : Request} {e : LogEntry}
    (notPassed : w.NotPassed i) (current : w.calls[i]? = some (.writing req e .committed)) :
    w.node.raft.lastApplied < e.index := by
  unfold NotPassed at notPassed
  rwa [current] at notPassed

/-! ## Numbering -/

/-- The numbers of the calls are places in the log, each given once. -/
structure Numbered (log : List LogEntry) (calls : List Call) : Prop where
  below : ∀ c ∈ calls, ∀ e, c.numbered = some e → e.index ≤ log.length
  distinct : EachPair (fun first second => ∀ e e', first.numbered = some e →
    second.numbered = some e' → e.index ≠ e'.index) calls

theorem Numbered.boot (log : List LogEntry) : Numbered log [] :=
  ⟨by simp, .nil⟩

theorem Numbered.concat {log : List LogEntry} {calls : List Call} {c : Call}
    (numbered : Numbered log calls) (unnumbered : c.numbered = none) :
    Numbered log (calls ++ [c]) := by
  refine ⟨each_concat numbered.below ?_, numbered.distinct.concat ?_⟩
  · simp [unnumbered]
  · simp [unnumbered]

theorem Numbered.of_section {n node : Node} {calls : List Call} {i : Nat} {req : Request}
    {e e' : LogEntry} {env : WriteEnv} {stage stage' : Stage}
    (numbered : Numbered n.raft.log calls)
    (current : calls[i]? = some (.writing req e stage))
    (ran : Node.Section n e env stage e' stage' node) :
    Numbered node.raft.log (calls.set i (.writing req e' stage')) := by
  have placed : (Call.writing req e' stage').numbered = some e' := if_neg ran.stage_ne_built
  rcases ran.log_cases with ⟨_, isNew, longer⟩ | ⟨later, same, sameLog⟩
  · have index : e'.index = n.raft.log.length + 1 := by rw [isNew, Raft.number_index]
    have length : node.raft.log.length = n.raft.log.length + 1 := by
      rw [longer, List.length_append]
      rfl
    refine ⟨each_set ?_ ?_, numbered.distinct.set current ?_⟩
    · intro c member other isOther
      have below := numbered.below c member other isOther
      omega
    · intro other isOther
      rw [placed, Option.some.injEq] at isOther
      rw [← isOther]
      omega
    · intro c member _ _
      have fresh (other : LogEntry) (isOther : c.numbered = some other) :
          e'.index ≠ other.index := by
        have below := numbered.below c member other isOther
        omega
      refine ⟨?_, ?_⟩
      · intro mine other isMine isOther
        rw [placed, Option.some.injEq] at isMine
        rw [← isMine]
        exact fresh other isOther
      · intro other mine isOther isMine
        rw [placed, Option.some.injEq] at isMine
        rw [← isMine]
        exact (fresh other isOther).symm
  · subst same
    have before : (Call.writing req e' stage).numbered = some e' := if_neg later
    rw [sameLog]
    refine ⟨each_set numbered.below ?_, numbered.distinct.set current ?_⟩
    · intro other isOther
      rw [placed, ← before] at isOther
      exact numbered.below _ (List.mem_of_getElem? current) other isOther
    · intro c _ toOther fromOther
      rw [placed]
      rw [before] at toOther fromOther
      exact ⟨toOther, fromOther⟩

theorem Numbered.of_transition {w next : World} {act : Act}
    (numbered : Numbered w.node.raft.log w.calls) (moved : Transition w act next) :
    Numbered next.node.raft.log next.calls := by
  cases moved with
  | refused => exact numbered.concat rfl
  | called => exact numbered.concat rfl
  | ran current ran => exact numbered.of_section current ran
  | copied | built | written | closed | renamed | truncated | gaveUp | electionTimeout =>
      exact numbered

end World

end MiniCloud.Db
