import MiniCloud.Db.Acknowledged
import MiniCloud.Library.VersionedMap

/-!
# The store as a versioned map

Without snapshots and without file errors, a single node answers every request
as a versioned map does, also across restarts.  The simulation ties together the
log, the journal and the applied index: the journal holds exactly the log, the
core is the fold of the log, and the applied index is the log length, so that the
guard of `applyLocked` never fires and a restart rebuilds the same core.
-/

namespace MiniCloud.Db

open MiniCloud.Library

/-- No snapshot is taken and every journal write succeeds. -/
def Op.Plain : Op → Prop
  | .put _ _ env | .delete _ env | .compareAndSwap _ _ _ env => env.write = .ok
  | .snapshot _ => False
  | _ => True

/-- The entry that a client sees for the content of a key. -/
def shown (key : String) (stored : Bytes × Nat) : Entry := ⟨key, stored.1, stored.2, false⟩

/-- The abstract store: what each request does to a versioned map. -/
def mapReact (m : VersionedMap String Bytes) :
    Op → Node.Reply × Option (VersionedMap String Bytes)
  | .put key value _ =>
      (.entry (some ⟨key, value, m.version key + 1, false⟩), some (m.put key value))
  | .delete key _ => (.done, some (m.delete key))
  | .compareAndSwap key value expect _ =>
      match m.compareAndSwap key value expect with
      | none => (.failed .casMismatch, some m)
      | some next => (.entry (some ⟨key, value, expect + 1, false⟩), some next)
  | .get key =>
      match m.lookup key with
      | none => (.failed .notFound, some m)
      | some stored => (.entry (some (shown key stored)), some m)
  | .list pfx =>
      (.entries ((m.list fun key => hasPrefix key pfx).map fun found => shown found.1 found.2),
        some m)
  | .snapshot _ | .electionTimeout | .reopen => (.done, some m)

namespace Node

/-- The journal holds the log, and the core is the replay of the log. -/
structure Replayable (cfg : Config) (n : Node) : Prop where
  config : n.cfg = cfg
  peers : n.raft.peers = Raft.peersOf cfg
  journalOpen : n.raft.journalOpen = true
  noSnapshot : n.disk.snap = none
  journal : n.disk.journal = n.raft.log.map .whole
  core : n.raft.core = n.raft.log.foldl Raft.applyCore (.empty, 0)
  applied : n.raft.lastApplied = n.raft.log.length

theorem Replayable.ready {cfg : Config} {n : Node} (replayable : Replayable cfg n) :
    n.raft.Ready := Nat.le_of_eq replayable.applied

theorem Replayable.accepts {cfg : Config} {n : Node} (replayable : Replayable cfg n)
    (e : LogEntry) (commitIndex : Nat) : Replayable cfg (n.accepts e commitIndex) := by
  have core := accepts_st_of_ready replayable.ready e commitIndex
  obtain ⟨log, peers, handle⟩ := accepts_frame n e commitIndex
  refine ⟨replayable.config, ?_, ?_, replayable.noSnapshot, ?_, ?_, ?_⟩
  · rw [peers]
    exact replayable.peers
  · rw [handle]
    exact replayable.journalOpen
  · rw [log, List.map_append, ← replayable.journal]
    rfl
  · rw [accepts_core, log, List.foldl_append, ← replayable.core]
    rfl
  · rw [log, List.length_append]
    exact congrArg Prod.snd core

/-- A restart rebuilds the log and the core. -/
theorem Replayable.opened {cfg : Config} {n next : Node} (replayable : Replayable cfg n)
    (reopened : n.reopen = .ok next) :
    Replayable cfg next ∧ next.raft.core = n.raft.core := by
  rw [Node.reopen, replayable.config] at reopened
  obtain ⟨sameCfg, sameDisk, recovered⟩ := recovered_of_openOn reopened
  rw [replayable.journal, readJournal_whole, replayable.noSnapshot] at recovered
  have sameLog : next.raft.log = n.raft.log := recovered.log
  have sameCore : next.raft.core = n.raft.core := recovered.core.trans replayable.core.symm
  refine ⟨⟨sameCfg, recovered.peers, recovered.journalOpen, ?_, ?_, ?_, ?_⟩, sameCore⟩
  · rw [sameDisk]
    exact replayable.noSnapshot
  · rw [sameDisk, sameLog]
    exact replayable.journal
  · rw [sameCore, sameLog]
    exact replayable.core
  · rw [sameLog, ← replayable.applied]
    exact congrArg Prod.snd sameCore

theorem Replayable.started {cfg : Config} {n : Node} (started : Started cfg n) :
    Replayable cfg n ∧ n.raft.core = (.empty, 0) := by
  obtain ⟨sameCfg, sameDisk, recovered⟩ := recovered_of_openOn started
  have log : n.raft.log = [] := recovered.log
  have core : n.raft.core = (.empty, 0) := recovered.core
  refine ⟨⟨sameCfg, recovered.peers, recovered.journalOpen, ?_, ?_, ?_, ?_⟩, core⟩
  · rw [sameDisk]
    rfl
  · rw [sameDisk, log]
    rfl
  · rw [core, log]
    rfl
  · rw [log]
    exact congrArg Prod.snd core

theorem Replayable.electionTimeout {cfg : Config} {n : Node} (replayable : Replayable cfg n)
    (nodeID : String) : Replayable cfg { n with raft := n.raft.electionTimeout nodeID } :=
  ⟨replayable.config, replayable.peers, replayable.journalOpen, replayable.noSnapshot,
    replayable.journal, replayable.core, replayable.applied⟩

/-- The node holds the map, and its journal holds the log it came from. -/
structure Holds (cfg : Config) (n : Node) (m : VersionedMap String Bytes) : Prop
    extends Replayable cfg n where
  content : ∀ key, n.raft.st.get key = (m.lookup key).map (shown key)

theorem Holds.nextVersion {cfg : Config} {n : Node} {m : VersionedMap String Bytes}
    (holds : Holds cfg n m) (key : String) : n.raft.nextVersion key = m.version key + 1 := by
  have content := holds.content key
  unfold Raft.nextVersion VersionedMap.version
  change n.raft.st.entries.lookup key = _ at content
  rw [content]
  cases m.lookup key with
  | none => rfl
  | some stored => rfl

theorem Holds.checkVersion {cfg : Config} {n : Node} {m : VersionedMap String Bytes}
    (holds : Holds cfg n m) (key : String) (expect : Nat) :
    n.raft.checkVersion key expect =
      if m.version key = expect then some (expect + 1) else none := by
  have content := holds.content key
  unfold Raft.checkVersion VersionedMap.version
  change n.raft.st.entries.lookup key = _ at content
  rw [content]
  cases m.lookup key with
  | none =>
      by_cases zero : expect = 0
      · simp [zero]
      · simp [zero, Ne.symm zero]
  | some stored =>
      by_cases same : stored.2 = expect
      · simp [shown, same]
      · simp [shown, same]

/-- An accepted entry keeps the simulation when the map takes the same effect. -/
theorem Holds.accepts {cfg : Config} {n : Node} {m next : VersionedMap String Bytes}
    (holds : Holds cfg n m) (e : LogEntry) (commitIndex : Nat)
    (self : e.stored = (next.lookup e.key).map (shown e.key))
    (others : ∀ key, key ≠ e.key → next.lookup key = m.lookup key) :
    Holds cfg (n.accepts e commitIndex) next := by
  have store : (n.accepts e commitIndex).raft.st = n.raft.st.apply (n.raft.number e) :=
    congrArg Prod.fst (accepts_st_of_ready holds.ready e commitIndex)
  refine ⟨holds.toReplayable.accepts e commitIndex, ?_⟩
  intro key
  rw [store]
  by_cases same : key = e.key
  · subst same
    rw [← self]
    exact Store.get_apply_self n.raft.st (n.raft.number e)
  · rw [others key same, ← holds.content key]
    exact Store.get_apply_ne n.raft.st same

theorem Holds.opened {cfg : Config} {n next : Node} {m : VersionedMap String Bytes}
    (holds : Holds cfg n m) (reopened : n.reopen = .ok next) : Holds cfg next m := by
  obtain ⟨replayable, sameCore⟩ := holds.toReplayable.opened reopened
  refine ⟨replayable, ?_⟩
  intro key
  rw [← holds.content key]
  exact congrArg (fun c => c.1.get key) sameCore

theorem Holds.started {cfg : Config} {n : Node} (started : Started cfg n) :
    Holds cfg n ∅ := by
  obtain ⟨replayable, core⟩ := Replayable.started started
  refine ⟨replayable, ?_⟩
  intro key
  have store : n.raft.st = .empty := congrArg Prod.fst core
  rw [store, Finmap.lookup_empty]
  rfl

/-- The listing of the store is the listing of the map. -/
theorem Holds.list_eq {cfg : Config} {n : Node} {m : VersionedMap String Bytes}
    (holds : Holds cfg n m) (pfx : String) :
    n.raft.st.entries.list pfx =
      (m.list fun key => hasPrefix key pfx).map fun found => shown found.1 found.2 := by
  have storeSorted := EntryMap.list_sorted n.raft.st.entries pfx
  have mapSorted : ((m.list fun key => hasPrefix key pfx).map
      fun found => shown found.1 found.2).Pairwise
        fun first second => first.key < second.key := by
    rw [List.pairwise_map]
    exact VersionedMap.list_sorted m fun key => hasPrefix key pfx
  have sameMembers : ∀ e, e ∈ n.raft.st.entries.list pfx ↔
      e ∈ (m.list fun key => hasPrefix key pfx).map fun found => shown found.1 found.2 := by
    intro e
    have content : n.raft.st.entries.lookup e.key = (m.lookup e.key).map (shown e.key) :=
      holds.content e.key
    rw [EntryMap.mem_list_iff, content, List.mem_map]
    constructor
    · rintro ⟨selected, stored⟩
      obtain ⟨found, present, same⟩ := Option.map_eq_some_iff.mp stored
      exact ⟨(e.key, found), VersionedMap.mem_list_iff.mpr ⟨selected, present⟩, same⟩
    · rintro ⟨⟨key, found⟩, listed, rfl⟩
      obtain ⟨selected, present⟩ := VersionedMap.mem_list_iff.mp listed
      exact ⟨selected, Option.map_eq_some_iff.mpr ⟨found, present, rfl⟩⟩
  exact EntryMap.eq_of_sorted storeSorted mapSorted sameMembers

/-- A submitted entry is accepted, and the map takes the same effect. -/
theorem Holds.submit {cfg : Config} {n : Node} {m : VersionedMap String Bytes}
    (single : SingleNode cfg) (holds : Holds cfg n m) (e : LogEntry)
    (next : VersionedMap String Bytes) {env : WriteEnv} (written : env.write = .ok)
    (self : e.stored = (next.lookup e.key).map (shown e.key))
    (others : ∀ key, key ≠ e.key → next.lookup key = m.lookup key) :
    ∃ n', n.submit e env = (none, n') ∧ Holds cfg n' next ∧
      n'.raft.st.get e.key = e.stored := by
  have alone : n.raft.peers.length = 1 := by
    rw [holds.peers]
    exact single
  exact ⟨_, submit_ok alone holds.journalOpen e written, holds.accepts e _ self others,
    get_of_accepted holds.ready rfl⟩

/-- One request keeps the simulation and gets the answer of the map. -/
theorem Holds.react {cfg : Config} {start n : Node} {m : VersionedMap String Bytes}
    (single : SingleNode cfg) (started : Started cfg start) (holds : Holds cfg n m)
    {op : Op} (plain : op.Plain) :
    (n.react op).1 = (mapReact m op).1 ∧
      Option.Rel (Holds cfg) (n.react op).2 (mapReact m op).2 := by
  have content (key : String) : n.raft.st.get key = (m.lookup key).map (shown key) :=
    holds.content key
  cases op with
  | get key =>
      simp only [Node.react, Node.get, mapReact, content key]
      cases m.lookup key with
      | none => exact ⟨rfl, .some holds⟩
      | some stored => exact ⟨rfl, .some holds⟩
  | list pfx =>
      refine ⟨?_, .some holds⟩
      simp only [Node.react, Node.list, mapReact, holds.list_eq pfx]
  | snapshot outcome => exact absurd plain id
  | electionTimeout =>
      exact ⟨rfl, .some ⟨holds.toReplayable.electionTimeout n.cfg.nodeID, holds.content⟩⟩
  | reopen =>
      have decodable : (readJournal n.disk.journal).failure = none := by
        rw [holds.journal, readJournal_whole]
      obtain ⟨next, opened⟩ := openOn_isOk started decodable
      have reopened : n.reopen = .ok next := by
        rw [Node.reopen, holds.config]
        exact opened
      simp only [Node.react, reopened, mapReact]
      exact ⟨trivial, .some (holds.opened reopened)⟩
  | put key value env =>
      obtain ⟨n', submitted, held, seen⟩ := holds.submit single
        ⟨0, 0, .put, key, value, n.raft.nextVersion key⟩ (m.put key value) plain
        (by rw [VersionedMap.lookup_put_self, holds.nextVersion]; rfl)
        (fun _ different => m.lookup_put_ne value different)
      simp only [Node.react, put_eq, submitted, replyTo, acknowledge, mapReact]
      refine ⟨?_, .some held⟩
      rw [seen, holds.nextVersion]
      rfl
  | delete key env =>
      obtain ⟨n', submitted, held, _⟩ := holds.submit single
        ⟨0, 0, .del, key, [], 0⟩ (m.delete key) plain
        (by rw [VersionedMap.lookup_delete_self]; rfl)
        (fun _ different => m.lookup_delete_ne different)
      simp only [Node.react, delete_eq, submitted, replyTo, acknowledge, mapReact]
      exact ⟨trivial, .some held⟩
  | compareAndSwap key value expect env =>
      have checked := holds.checkVersion key expect
      by_cases current : m.version key = expect
      · rw [if_pos current] at checked
        have swapped := VersionedMap.compareAndSwap_eq_some_iff.mpr
          ⟨current, (rfl : m.put key value = _)⟩
        obtain ⟨n', submitted, held, seen⟩ := holds.submit single
          ⟨0, 0, .put, key, value, expect + 1⟩ (m.put key value) plain
          (by rw [VersionedMap.lookup_put_self, current]; rfl)
          (fun _ different => m.lookup_put_ne value different)
        simp only [Node.react, compareAndSwap_eq checked, submitted, replyTo, acknowledge,
          mapReact, swapped]
        refine ⟨?_, .some held⟩
        rw [seen]
        rfl
      · rw [if_neg current] at checked
        have refused : m.compareAndSwap key value expect = none := if_neg current
        simp only [Node.react, Node.compareAndSwap, checked, mapReact, refused]
        exact ⟨trivial, .some holds⟩

/-- Every answer of a single node, in every run of requests and restarts from an
empty directory without snapshots and file errors, is the answer of the versioned
map; a listing of the map is its selected entries in strictly increasing key
order. -/
theorem answers_eq_versionedMap {cfg : Config} {start : Node} {ops : List Op}
    (single : SingleNode cfg) (started : Started cfg start)
    (plain : ∀ op ∈ ops, op.Plain) :
    answers Node.react start ops = answers mapReact ∅ ops ∧
      ∀ (m : VersionedMap String Bytes) (selected : String → Bool),
        ((m.list selected).Pairwise fun first second => first.1 < second.1) ∧
          ∀ key stored, (key, stored) ∈ m.list selected ↔
            selected key = true ∧ m.lookup key = some stored := by
  refine ⟨?_, fun m selected => ⟨VersionedMap.list_sorted m selected,
    fun key stored => VersionedMap.mem_list_iff⟩⟩
  refine answers_eq_of_simulation (fun n m rest => Holds cfg n m ∧ ∀ op ∈ rest, op.Plain) ?_
    ⟨Holds.started started, plain⟩
  rintro n m op rest ⟨holds, plainRest⟩
  obtain ⟨sameAnswer, related⟩ := holds.react single started
    (plainRest op List.mem_cons_self)
  refine ⟨sameAnswer, ?_⟩
  generalize (n.react op).2 = next at related ⊢
  generalize (mapReact m op).2 = next' at related ⊢
  cases related with
  | none => exact .none
  | some held =>
      exact .some ⟨held, fun op member => plainRest op (List.mem_cons_of_mem _ member)⟩

theorem answers_eq_versionedMap_restart :
    answers Node.react testNode
        [.put "a" [1] ⟨.ok, []⟩, .reopen, .compareAndSwap "a" [2] 1 ⟨.ok, []⟩, .get "a"] =
      [.entry (some ⟨"a", [1], 1, false⟩), .done, .entry (some ⟨"a", [2], 2, false⟩),
        .entry (some ⟨"a", [2], 2, false⟩)] := by
  have single : SingleNode testConfig := rfl
  rw [(answers_eq_versionedMap single testNode_started (by simp [Op.Plain])).1]
  decide

end Node

end MiniCloud.Db
