import MiniCloud.Db.Store

/-!
# The raft node

The state of `raft` and its data directory, and the functions of `raft.go` on
them.  Every function that takes a lock several times is cut into its critical
sections, so that the sequential operations below and the interleaved ones are
built from the same pieces.  What the file system and the network answer is an
argument: the outcome of a journal write, of each file operation of a snapshot,
and the peers that acknowledge in time.

The data directory is kept line by line.  A journal line is either the whole
JSON text of an entry or a torn part of it; `nextIndex`, `matchIndex` and the
put and delete counters are never read and are left out, and so are watchers.
-/

namespace MiniCloud.Db

structure Peer where
  id : String
  address : String
  deriving DecidableEq, Repr

structure Config where
  nodeID : String
  dataDir : String
  listen : String
  bootstrap : Bool
  peers : List Peer
  deriving DecidableEq, Repr

inductive Role where
  | follower
  | candidate
  | leader
  deriving DecidableEq, Repr

/-- The content of `snap.json`. -/
structure RaftSnapshot where
  term : Nat
  index : Nat
  state : EntryMap

/-- What one write left in `journal.jsonl`: the whole JSON text of an entry, or
a non-empty part of it that stops before the end. -/
inductive JournalLine where
  | whole (e : LogEntry)
  | torn (e : LogEntry)
  deriving DecidableEq, Repr

/-- The data directory; `snap` is `none` while there is no readable snapshot. -/
structure Disk where
  journal : List JournalLine
  snapTmp : Option RaftSnapshot
  snap : Option RaftSnapshot

def Disk.empty : Disk := ⟨[], none, none⟩

/-- The errors of the write operations. -/
inductive KvError where
  /-- `kv: key not found` -/
  | notFound
  /-- `kv: cas version mismatch` -/
  | casMismatch
  /-- The error of `journal.Write` or `journal.Sync`. -/
  | journal
  /-- `db: replication timeout` -/
  | replicationTimeout
  deriving DecidableEq, Repr

/-- What a failed or successful `Write` and `Sync` leave in the journal file. -/
inductive WriteOutcome where
  /-- The line is written and synced. -/
  | ok
  /-- The write fails before its first byte. -/
  | lost
  /-- The write fails inside the JSON text, after at least one byte. -/
  | torn
  /-- The whole JSON text is written, but the call reports an error. -/
  | unsynced
  deriving DecidableEq, Repr

/-- The environment of one write: the journal file and the answering peers. -/
structure WriteEnv where
  write : WriteOutcome
  answered : List String
  deriving DecidableEq, Repr

/-- The first file operation of a snapshot that fails, if any. -/
inductive SnapshotOutcome where
  | ok
  | writeFailed
  | closeFailed
  | renameFailed
  | openFailed
  deriving DecidableEq, Repr

structure Raft where
  role : Role
  currentTerm : Nat
  votedFor : String
  log : List LogEntry
  commitIndex : Nat
  lastApplied : Nat
  peers : List Peer
  st : Store
  /-- Whether the handle `r.journal` can still be written. -/
  journalOpen : Bool
  applyQueue : List (Option Entry)
  /-- The counter `mets.applied`. -/
  applied : Nat

namespace Raft

/-! ## State machine -/

/-- The first critical section of `applyLocked`: skip an entry whose index has
been passed, or advance `lastApplied`. -/
def markApplied (r : Raft) (e : LogEntry) : Option Raft :=
  if e.index ≤ r.lastApplied then none else some { r with lastApplied := e.index }

/-- The second critical section of `applyLocked`. -/
def updateStore (r : Raft) (e : LogEntry) : Raft :=
  { r with st := r.st.apply e }

/-- The event for the watchers, read back from the store for a put. -/
def eventOf (r : Raft) (e : LogEntry) : Option Entry :=
  match e.op with
  | .put => r.st.get e.key
  | .del => some ⟨e.key, [], e.version, true⟩

def enqueue (r : Raft) (ev : Option Entry) : Raft :=
  { r with applyQueue := r.applyQueue ++ [ev], applied := r.applied + 1 }

def applyLocked (r : Raft) (e : LogEntry) : Raft :=
  match r.markApplied e with
  | none => r
  | some r =>
      let r := r.updateStore e
      r.enqueue (r.eventOf e)

/-- Without watchers, taking the queued events is all that `fanout` does. -/
def applyFromQueue (r : Raft) : Raft :=
  { r with applyQueue := [] }

/-! ## Persistence -/

/-- The critical section of `append`: number the entry by the log length. -/
def appendLog (r : Raft) (e : LogEntry) : LogEntry × Raft :=
  let currentTerm := if r.currentTerm = 0 then 1 else r.currentTerm
  let e := { e with index := r.log.length + 1, term := currentTerm }
  (e, { r with currentTerm := currentTerm, log := r.log ++ [e] })

/-- The snapshot that `snapshot` writes. -/
def takeSnapshot (r : Raft) : RaftSnapshot :=
  ⟨r.currentTerm, r.st.version, r.st.entries⟩

/-- One round of the decoding loop of `recover`. -/
def recoverEntry (r : Raft) (e : LogEntry) : Raft :=
  applyLocked
    { r with
      log := r.log ++ [e]
      currentTerm := if r.currentTerm < e.term then e.term else r.currentTerm
      commitIndex :=
        if r.commitIndex < e.index ∧ r.peers.length = 1 then e.index else r.commitIndex }
    e

/-- The end of `recover`: a readable snapshot replaces the replayed state. -/
def loadSnapshot (r : Raft) : Option RaftSnapshot → Raft
  | none => r
  | some snap =>
      { r with
        st := ⟨snap.state, snap.index⟩
        commitIndex := snap.index
        lastApplied := snap.index }

/-! ## Versions, commit index and the run loop -/

/-- The version that `Put` assigns. -/
def nextVersion (r : Raft) (key : String) : Nat :=
  match r.st.entries.lookup key with
  | some cur => cur.version + 1
  | none => 1

/-- The version that `CompareAndSwap` assigns; `none` is a mismatch. -/
def checkVersion (r : Raft) (key : String) (expect : Nat) : Option Nat :=
  match r.st.entries.lookup key with
  | some cur => if cur.version ≠ expect then none else some (expect + 1)
  | none => if expect ≠ 0 then none else some 1

def setCommit (r : Raft) (index : Nat) : Raft :=
  { r with commitIndex := index }

/-- The branch of `run` taken when the election timer fires. -/
def electionTimeout (r : Raft) (nodeID : String) : Raft :=
  { r with
    role := if r.peers.length = 1 then .leader else .candidate
    currentTerm := r.currentTerm + 1
    votedFor := nodeID }

/-- The test of `run` for taking a snapshot. -/
def SnapshotDue (r : Raft) : Prop := r.applied % 256 = 0 ∧ 0 < r.applied

instance (r : Raft) : Decidable r.SnapshotDue :=
  inferInstanceAs (Decidable (_ ∧ _))

end Raft

/-! ## Opening a data directory -/

/-- The errors of `json.Decoder.Decode` other than a clean end of input. -/
inductive DecodeError where
  | unexpectedEOF
  | invalidCharacter
  deriving DecidableEq, Repr

/-- The entries that the decoder yields and the error it stops with, if any. -/
structure JournalStream where
  entries : List LogEntry
  failure : Option DecodeError
  deriving DecidableEq, Repr

/-- Decode a journal file.  A torn line at the end is cut off in the middle of
a value; a torn line followed by another one is not JSON. -/
def readJournal : List JournalLine → JournalStream
  | [] => ⟨[], none⟩
  | .whole e :: rest => ⟨e :: (readJournal rest).entries, (readJournal rest).failure⟩
  | [.torn _] => ⟨[], some .unexpectedEOF⟩
  | .torn _ :: _ :: _ => ⟨[], some .invalidCharacter⟩

inductive OpenError where
  /-- `db: NodeID required` -/
  | nodeIDRequired
  /-- `db: DataDir required` -/
  | dataDirRequired
  /-- `recover: ` followed by the decoding error. -/
  | recover (err : DecodeError)
  deriving DecidableEq, Repr

namespace Raft

/-- Whether the peer list names the given identity. -/
def containsPeer (peers : List Peer) (id : String) : Bool :=
  peers.any fun p => p.id = id

/-- The peers of a node: the configured ones, and the node itself. -/
def peersOf (cfg : Config) : List Peer :=
  if containsPeer cfg.peers cfg.nodeID then cfg.peers
  else cfg.peers ++ [⟨cfg.nodeID, cfg.listen⟩]

/-- The node before `recover`. -/
def fresh (cfg : Config) : Raft where
  role := .follower
  currentTerm := 0
  votedFor := ""
  log := []
  commitIndex := 0
  lastApplied := 0
  peers := peersOf cfg
  st := .empty
  journalOpen := true
  applyQueue := []
  applied := 0

/-- Replay the journal, then load the snapshot. -/
def recover (r : Raft) (stream : JournalStream) (snap : Option RaftSnapshot) :
    Except DecodeError Raft :=
  let r := stream.entries.foldl recoverEntry r
  match stream.failure with
  | some err => .error err
  | none => .ok (r.loadSnapshot snap)

/-- The bootstrap branch of `openRaft`. -/
def bootstrapTerm (r : Raft) (cfg : Config) : Raft :=
  if cfg.bootstrap ∧ r.currentTerm = 0 then
    { r with currentTerm := 1, votedFor := cfg.nodeID }
  else r

def openRaft (cfg : Config) (stream : JournalStream) (snap : Option RaftSnapshot) :
    Except OpenError Raft :=
  if cfg.nodeID = "" then .error .nodeIDRequired
  else if cfg.dataDir = "" then .error .dataDirRequired
  else
    match recover (fresh cfg) stream snap with
    | .error err => .error (.recover err)
    | .ok r => .ok (r.bootstrapTerm cfg)

end Raft

end MiniCloud.Db
