import MiniCloud.Db.Raft
import MiniCloud.Library.Runs

/-!
# Sequential operation of a node

A node is a configuration, the memory of `raft` and the data directory.  The
operations of the `KV` interface are composed here from the critical sections
of `MiniCloud.Db.Raft`, with nothing running in between, and collected into one
reactive system: clients write and read, the run loop takes snapshots and fires
its election timer, and the node is closed and opened again.
-/

namespace MiniCloud.Db

open MiniCloud.Library

structure Node where
  cfg : Config
  raft : Raft
  disk : Disk

namespace Node

/-! ## Writing -/

/-- The part of `append` outside the lock: `journal.Write` and `journal.Sync`. -/
def writeJournal (n : Node) (e : LogEntry) (outcome : WriteOutcome) :
    Option KvError × Node :=
  if n.raft.journalOpen = false then (some .journal, n)
  else
    match outcome with
    | .ok => (none, { n with disk.journal := n.disk.journal ++ [.whole e] })
    | .lost => (some .journal, n)
    | .torn => (some .journal, { n with disk.journal := n.disk.journal ++ [.torn e] })
    | .unsynced => (some .journal, { n with disk.journal := n.disk.journal ++ [.whole e] })

def append (n : Node) (e : LogEntry) (outcome : WriteOutcome) :
    LogEntry × Option KvError × Node :=
  let (e, raft) := n.raft.appendLog e
  (e, { n with raft := raft }.writeJournal e outcome)

/-- The peers whose acknowledgement reaches `replicate` before its timer. -/
def acks (n : Node) (answered : List String) : Nat :=
  n.raft.peers.countP fun p => p.id = n.cfg.nodeID ∨ p.id ∈ answered

def replicate (n : Node) (e : LogEntry) (answered : List String) :
    Option KvError × Node :=
  if n.raft.peers.length = 1 then
    (none, { n with raft := ((n.raft.setCommit e.index).applyLocked e).applyFromQueue })
  else if n.acks answered < n.raft.peers.length / 2 + 1 then
    (some .replicationTimeout, n)
  else
    let commitIndex := if n.raft.commitIndex < e.index then e.index else n.raft.commitIndex
    (none, { n with raft := ((n.raft.setCommit commitIndex).applyLocked e).applyFromQueue })

/-- The common tail of `Put`, `Delete` and `CompareAndSwap`. -/
def submit (n : Node) (e : LogEntry) (env : WriteEnv) : Option KvError × Node :=
  match n.append e env.write with
  | (_, some err, n) => (some err, n)
  | (e, none, n) => n.replicate e env.answered

/-- What a client or the operator sees of one operation. -/
inductive Reply where
  | entry (e : Option Entry)
  | entries (es : List Entry)
  | done
  | failed (err : KvError)
  | snapshotFailed
  | openFailed (err : OpenError)
  deriving DecidableEq, Repr

def put (n : Node) (key : String) (value : Bytes) (env : WriteEnv) : Reply × Node :=
  match n.submit ⟨0, 0, .put, key, value, n.raft.nextVersion key⟩ env with
  | (some err, n) => (.failed err, n)
  | (none, n) => (.entry (n.raft.st.get key), n)

def delete (n : Node) (key : String) (env : WriteEnv) : Reply × Node :=
  match n.submit ⟨0, 0, .del, key, [], 0⟩ env with
  | (some err, n) => (.failed err, n)
  | (none, n) => (.done, n)

def compareAndSwap (n : Node) (key : String) (value : Bytes) (expect : Nat)
    (env : WriteEnv) : Reply × Node :=
  match n.raft.checkVersion key expect with
  | none => (.failed .casMismatch, n)
  | some version =>
      match n.submit ⟨0, 0, .put, key, value, version⟩ env with
      | (some err, n) => (.failed err, n)
      | (none, n) => (.entry (n.raft.st.get key), n)

/-! ## Reading -/

def get (n : Node) (key : String) : Reply :=
  match n.raft.st.get key with
  | none => .failed .notFound
  | some e => .entry (some e)

def list (n : Node) (pfx : String) : Reply :=
  .entries (n.raft.st.entries.list pfx)

/-! ## Snapshots and restarts -/

def writeTmp (n : Node) (snap : RaftSnapshot) : Node :=
  { n with disk.snapTmp := some snap }

def closeJournal (n : Node) : Node :=
  { n with raft.journalOpen := false }

def renameTmp (n : Node) : Node :=
  { n with disk.snap := n.disk.snapTmp, disk.snapTmp := none }

/-- Reopen the journal with `O_TRUNC`. -/
def truncateJournal (n : Node) : Node :=
  { n with raft.journalOpen := true, disk.journal := [] }

/-- Closing a handle that is already closed is an error. -/
def snapshot (n : Node) (outcome : SnapshotOutcome) : Reply × Node :=
  if outcome = .writeFailed then (.snapshotFailed, n)
  else
    let n := n.writeTmp n.raft.takeSnapshot
    if n.raft.journalOpen = false then (.snapshotFailed, n)
    else
      let n := n.closeJournal
      match outcome with
      | .writeFailed | .closeFailed | .renameFailed => (.snapshotFailed, n)
      | .openFailed => (.snapshotFailed, n.renameTmp)
      | .ok => (.done, n.renameTmp.truncateJournal)

/-- Open the data directory `disk`. -/
def openOn (cfg : Config) (disk : Disk) : Except OpenError Node :=
  match Raft.openRaft cfg (readJournal disk.journal) disk.snap with
  | .error err => .error err
  | .ok raft => .ok ⟨cfg, raft, disk⟩

/-- `Close`, then `openRaft` on the same directory. -/
def reopen (n : Node) : Except OpenError Node :=
  openOn n.cfg n.disk

end Node

/-! ## The reactive system -/

inductive Op where
  | put (key : String) (value : Bytes) (env : WriteEnv)
  | delete (key : String) (env : WriteEnv)
  | compareAndSwap (key : String) (value : Bytes) (expect : Nat) (env : WriteEnv)
  | get (key : String)
  | list (pfx : String)
  | snapshot (outcome : SnapshotOutcome)
  | electionTimeout
  | reopen
  deriving DecidableEq, Repr

namespace Node

/-- Answer one operation; a directory that cannot be opened leaves no node. -/
def react (n : Node) : Op → Reply × Option Node
  | .put key value env => ((n.put key value env).1, some (n.put key value env).2)
  | .delete key env => ((n.delete key env).1, some (n.delete key env).2)
  | .compareAndSwap key value expect env =>
      ((n.compareAndSwap key value expect env).1,
        some (n.compareAndSwap key value expect env).2)
  | .get key => (n.get key, some n)
  | .list pfx => (n.list pfx, some n)
  | .snapshot outcome => ((n.snapshot outcome).1, some (n.snapshot outcome).2)
  | .electionTimeout =>
      (.done, some { n with raft := n.raft.electionTimeout n.cfg.nodeID })
  | .reopen =>
      match n.reopen with
      | .error err => (.openFailed err, none)
      | .ok next => (.done, some next)

/-- The state part of one operation. -/
def step (n : Node) (op : Op) : Option Node := (n.react op).2

/-- A node is started by opening an empty directory. -/
def Started (cfg : Config) (n : Node) : Prop :=
  openOn cfg .empty = .ok n

/-- The store has no peers besides itself. -/
def SingleNode (cfg : Config) : Prop := (Raft.peersOf cfg).length = 1

end Node

/-- The single-node configuration of the package's tests. -/
def testConfig : Config := ⟨"n1", "node", "127.0.0.1:0", true, []⟩

/-- The node that the tests start from. -/
def testNode : Node := ⟨testConfig, (Raft.fresh testConfig).bootstrapTerm testConfig, .empty⟩

theorem testNode_started : Node.Started testConfig testNode := rfl

end MiniCloud.Db
