import MiniCloud.Db.Transitions
import MiniCloud.Library.Quorums

/-!
# The members of a cluster

`AddPeer` and `RemovePeer` change the peers of a running node between its other
operations; a restart goes back to the configured peers.  The peers are a table from
identities to addresses in which an identity that is there keeps its address.

A write succeeds when more than half of the peers acknowledge it, where the node itself
counts if it is one of them.  A node with a single peer asks nobody, whoever that peer is;
so it is only for a node that stays its own peer that two writes share an acknowledging
peer, also across one change of membership.
-/

namespace MiniCloud.Db

open MiniCloud.Library

/-! ## Changes of membership -/

namespace Raft

/-- `AddPeer`. -/
def addPeer (r : Raft) (p : Peer) : Raft :=
  if containsPeer r.peers p.id then r else { r with peers := r.peers ++ [p] }

/-- `RemovePeer`, which filters the peers in their own array. -/
def removePeer (r : Raft) (id : String) : Raft :=
  { r with peers := r.peers.filter fun p => p.id ≠ id }

end Raft

/-- What happens to a node whose membership changes. -/
inductive Change where
  | addPeer (p : Peer)
  | removePeer (id : String)
  | op (op : Op)
  deriving DecidableEq, Repr

namespace Node

def evolve (n : Node) : Change → Option Node
  | .addPeer p => some { n with raft := n.raft.addPeer p }
  | .removePeer id => some { n with raft := n.raft.removePeer id }
  | .op op => n.step op

/-- `Peers`, which returns a copy. -/
def peers (n : Node) : List Peer := n.raft.peers

end Node

/-! ## The table of members -/

/-- The addresses of the members. -/
abbrev Roster := String → Option String

/-- The table that a list of peers stands for. -/
def rosterOf (peers : List Peer) : Roster := fun id =>
  (peers.find? fun p => p.id = id).map Peer.address

/-- What a change does to the table; a member that is added again keeps its address. -/
def Roster.change (configured roster : Roster) : Change → Roster
  | .addPeer p => Function.update roster p.id (some ((roster p.id).getD p.address))
  | .removePeer id => Function.update roster id none
  | .op .reopen => configured
  | .op _ => roster

theorem containsPeer_iff {peers : List Peer} {id : String} :
    Raft.containsPeer peers id = true ↔ id ∈ peers.map Peer.id := by
  simp [Raft.containsPeer]

theorem rosterOf_eq_none {peers : List Peer} {id : String} :
    rosterOf peers id = none ↔ id ∉ peers.map Peer.id := by
  simp [rosterOf]

theorem rosterOf_addPeer (r : Raft) (p : Peer) :
    rosterOf (r.addPeer p).peers =
      Function.update (rosterOf r.peers) p.id (some ((rosterOf r.peers p.id).getD p.address)) := by
  funext id
  unfold Raft.addPeer
  by_cases member : Raft.containsPeer r.peers p.id = true
  · rw [if_pos member]
    by_cases same : id = p.id
    · subst same
      rw [Function.update_self]
      cases found : rosterOf r.peers p.id with
      | none => exact absurd (containsPeer_iff.mp member) (rosterOf_eq_none.mp found)
      | some address => rfl
    · rw [Function.update_of_ne same]
  · have absent : rosterOf r.peers p.id = none :=
      rosterOf_eq_none.mpr fun present => member (containsPeer_iff.mpr present)
    rw [if_neg member, absent]
    unfold rosterOf at absent ⊢
    rw [List.find?_append, Option.map_or]
    by_cases same : id = p.id
    · subst same
      rw [Function.update_self, absent]
      simp
    · rw [Function.update_of_ne same]
      simp [Ne.symm same]

theorem rosterOf_removePeer (r : Raft) (gone : String) :
    rosterOf (r.removePeer gone).peers = Function.update (rosterOf r.peers) gone none := by
  funext id
  unfold rosterOf Raft.removePeer
  rw [List.find?_filter]
  by_cases same : id = gone
  · subst same
    simp
  · rw [Function.update_of_ne same]
    congr 2
    funext p
    by_cases isID : p.id = id
    · simp [isID, same]
    · simp [isID]

/-! ## What the operations do to the peers -/

namespace Node

/-- An operation keeps the peers, and a restart takes those of the configuration. -/
theorem peers_of_step {n next : Node} {op : Op} (stepped : n.step op = some next) :
    next.cfg = n.cfg ∧
      next.raft.peers = if op = .reopen then Raft.peersOf n.cfg else n.raft.peers := by
  obtain ⟨reply, moved⟩ := transition_of_step stepped
  cases moved with
  | get key => exact ⟨rfl, rfl⟩
  | list pfx => exact ⟨rfl, rfl⟩
  | mismatch refused => exact ⟨rfl, rfl⟩
  | failed request submitted =>
      have write : op ≠ .reopen := by
        rintro rfl
        cases request
      rw [if_neg write]
      cases submitted with
      | journalClosed => exact ⟨rfl, rfl⟩
      | journalFailed => exact ⟨rfl, rfl⟩
      | timedOut => exact ⟨rfl, rfl⟩
  | acknowledged request submitted =>
      have write : op ≠ .reopen := by
        rintro rfl
        cases request
      rw [if_neg write]
      cases submitted with
      | acknowledged opened written quorum commitIndex =>
          exact ⟨rfl, (accepts_frame n _ commitIndex).2.1⟩
  | snapshot outcome =>
      have taken := snapshotted_snapshot n outcome
      exact ⟨taken.cfg, taken.peers⟩
  | electionTimeout => exact ⟨rfl, rfl⟩
  | reopen opened =>
      obtain ⟨sameCfg, _, recovered⟩ := recovered_of_openOn opened
      exact ⟨sameCfg, recovered.peers⟩

/-- The roster after one change. -/
theorem roster_of_evolve {cfg : Config} {n next : Node} {change : Change} (config : n.cfg = cfg)
    (evolved : n.evolve change = some next) :
    next.cfg = cfg ∧ rosterOf next.raft.peers =
      Roster.change (rosterOf (Raft.peersOf cfg)) (rosterOf n.raft.peers) change := by
  cases change with
  | addPeer p =>
      cases Option.some.inj evolved
      exact ⟨config, rosterOf_addPeer n.raft p⟩
  | removePeer id =>
      cases Option.some.inj evolved
      exact ⟨config, rosterOf_removePeer n.raft id⟩
  | op op =>
      obtain ⟨sameCfg, peers⟩ := peers_of_step evolved
      rw [config] at sameCfg peers
      refine ⟨sameCfg, ?_⟩
      rw [peers]
      cases op with
      | reopen => rfl
      | _ => rfl

/-! ## No identity twice -/

theorem distinct_append {peers : List Peer} {p : Peer}
    (absent : ¬Raft.containsPeer peers p.id = true) (distinct : (peers.map Peer.id).Nodup) :
    ((peers ++ [p]).map Peer.id).Nodup := by
  rw [List.map_append, List.map_singleton, ← List.concat_eq_append]
  exact distinct.concat fun present => absent (containsPeer_iff.mpr present)

theorem distinct_addPeer {r : Raft} (p : Peer) (distinct : (r.peers.map Peer.id).Nodup) :
    ((r.addPeer p).peers.map Peer.id).Nodup := by
  unfold Raft.addPeer
  split
  · exact distinct
  · rename_i absent
    exact distinct_append absent distinct

theorem distinct_peersOf {cfg : Config} (distinct : (cfg.peers.map Peer.id).Nodup) :
    ((Raft.peersOf cfg).map Peer.id).Nodup := by
  unfold Raft.peersOf
  split
  · exact distinct
  · rename_i absent
    exact distinct_append absent distinct

theorem own_mem_peersOf (cfg : Config) : cfg.nodeID ∈ (Raft.peersOf cfg).map Peer.id := by
  unfold Raft.peersOf
  split
  · rename_i present
    exact containsPeer_iff.mp present
  · simp

theorem distinct_of_evolve {cfg : Config} (configured : (cfg.peers.map Peer.id).Nodup)
    {n next : Node} {change : Change} (config : n.cfg = cfg)
    (distinct : (n.raft.peers.map Peer.id).Nodup) (evolved : n.evolve change = some next) :
    (next.raft.peers.map Peer.id).Nodup := by
  cases change with
  | addPeer p =>
      cases Option.some.inj evolved
      exact distinct_addPeer p distinct
  | removePeer id =>
      cases Option.some.inj evolved
      exact distinct.sublist (List.filter_sublist.map _)
  | op op =>
      obtain ⟨_, peers⟩ := peers_of_step evolved
      rw [peers]
      split
      · rw [config]
        exact distinct_peersOf configured
      · exact distinct

/-- Through every run the peers are the members that the changes leave, each with the address
it was first added with; no identity is listed twice unless the configuration does. -/
theorem roster_follows_changes {cfg : Config} {n last : Node} {changes : List Change}
    (started : Started cfg n) (reached : execute evolve n changes = some last) :
    rosterOf last.peers =
        changes.foldl (Roster.change (rosterOf (Raft.peersOf cfg))) (rosterOf (Raft.peersOf cfg)) ∧
      ((cfg.peers.map Peer.id).Nodup → (last.peers.map Peer.id).Nodup) := by
  obtain ⟨config, _, recovered⟩ := recovered_of_openOn started
  have follows (changes : List Change) (n : Node) (config : n.cfg = cfg)
      (reached : execute evolve n changes = some last) :
      rosterOf last.peers =
        changes.foldl (Roster.change (rosterOf (Raft.peersOf cfg))) (rosterOf n.raft.peers) := by
    induction changes generalizing n with
    | nil =>
        cases Option.some.inj reached
        rfl
    | cons change rest ih =>
        simp only [execute_cons, Option.bind_eq_some_iff] at reached
        obtain ⟨next, evolved, reached⟩ := reached
        obtain ⟨sameCfg, roster⟩ := roster_of_evolve config evolved
        rw [ih next sameCfg reached, List.foldl_cons, roster]
  refine ⟨?_, ?_⟩
  · rw [follows changes n config reached, recovered.peers]
  · intro configured
    have start : (n.raft.peers.map Peer.id).Nodup := by
      rw [recovered.peers]
      exact distinct_peersOf configured
    exact (invariant_of_execute evolve
      (fun n => n.cfg = cfg ∧ (n.raft.peers.map Peer.id).Nodup)
      (fun n change next held evolved =>
        ⟨(roster_of_evolve held.1 evolved).1, distinct_of_evolve configured held.1 held.2 evolved⟩)
      ⟨config, start⟩ reached).2

/-! ## Majorities -/

/-- The identities of the peers. -/
def members (n : Node) : List String := n.raft.peers.map Peer.id

/-- The member is the node itself, or its acknowledgement arrives in time. -/
def acknowledges (nodeID : String) (answered : List String) (id : String) : Bool :=
  decide (id = nodeID ∨ id ∈ answered)

/-- The operation is a write, and it does not fail. -/
def Succeeds (n : Node) (op : Op) (env : WriteEnv) : Prop :=
  (∃ e, op.request n = some (e, env)) ∧ ∀ err, (n.react op).1 ≠ .failed err

theorem acks_eq_countP (n : Node) (answered : List String) :
    n.acks answered = n.members.countP (acknowledges n.cfg.nodeID answered) := by
  unfold members
  rw [List.countP_map]
  rfl

theorem majority_of_succeeds {n : Node} {op : Op} {env : WriteEnv} (own : n.cfg.nodeID ∈ n.members)
    (succeeds : n.Succeeds op env) :
    Majority n.members (acknowledges n.cfg.nodeID env.answered) := by
  obtain ⟨⟨e, request⟩, notFailed⟩ := succeeds
  have submitted := submitted_submit n e env
  rw [react_of_request request] at notFailed
  unfold replyTo at notFailed
  cases result : (n.submit e env).1 with
  | some err =>
      rw [result] at notFailed
      exact absurd rfl (notFailed err)
  | none =>
      rw [result] at submitted
      generalize (n.submit e env).2 = next at submitted
      cases submitted with
      | acknowledged opened written quorum commitIndex =>
          have total : n.members.length = n.raft.peers.length := List.length_map _
          unfold Majority
          rcases quorum with single | enough
          · -- the only member is the node itself
            obtain ⟨id, isMembers⟩ := List.length_eq_one_iff.mp (total.trans single)
            rw [isMembers] at own ⊢
            simp [acknowledges, List.mem_singleton.mp own]
          · rw [acks_eq_countP] at enough
            omega

theorem own_of_evolve {n next : Node} {change : Change} (own : n.cfg.nodeID ∈ n.members)
    (kept : change ≠ .removePeer n.cfg.nodeID) (evolved : n.evolve change = some next) :
    next.cfg.nodeID ∈ next.members := by
  cases change with
  | addPeer p =>
      cases Option.some.inj evolved
      unfold members Raft.addPeer
      split
      · exact own
      · rw [List.map_append]
        exact List.mem_append_left _ own
  | removePeer id =>
      cases Option.some.inj evolved
      obtain ⟨p, member, isSelf⟩ := List.mem_map.mp own
      have stays : p.id ≠ id := by
        rintro rfl
        exact kept (congrArg Change.removePeer isSelf)
      exact List.mem_map.mpr ⟨p, List.mem_filter.mpr ⟨member, decide_eq_true stays⟩, isSelf⟩
  | op op =>
      obtain ⟨sameCfg, peers⟩ := peers_of_step evolved
      unfold members
      rw [sameCfg, peers]
      split
      · exact own_mem_peersOf n.cfg
      · exact own

/-- A node stays its own peer until it removes itself. -/
theorem own_of_run {cfg : Config} {n last : Node} {changes : List Change}
    (started : Started cfg n) (reached : execute evolve n changes = some last)
    (kept : .removePeer cfg.nodeID ∉ changes) : last.cfg = cfg ∧ cfg.nodeID ∈ last.members := by
  obtain ⟨config, -, recovered⟩ := recovered_of_openOn started
  have own : cfg.nodeID ∈ n.members := by
    unfold members
    rw [recovered.peers]
    exact own_mem_peersOf cfg
  clear started recovered
  induction changes generalizing n with
  | nil =>
      cases Option.some.inj reached
      exact ⟨config, own⟩
  | cons change rest ih =>
      simp only [execute_cons, Option.bind_eq_some_iff] at reached
      obtain ⟨next, evolved, reached⟩ := reached
      have notFirst : change ≠ .removePeer n.cfg.nodeID := by
        rintro rfl
        exact kept (config ▸ List.mem_cons_self)
      have sameCfg := (roster_of_evolve config evolved).1
      have ownNext := own_of_evolve (config ▸ own) notFirst evolved
      rw [sameCfg] at ownNext
      exact ih reached (fun later => kept (List.mem_cons_of_mem _ later)) sameCfg ownNext

/-- Two nodes that have not removed themselves, where the second has the members of the first
and at most one more: of any two writes that they accept, some member has acknowledged both. -/
theorem quorums_meet {cfg₁ cfg₂ : Config} {s₁ s₂ n₁ n₂ : Node} {changes₁ changes₂ : List Change}
    (started₁ : Started cfg₁ s₁) (reached₁ : execute evolve s₁ changes₁ = some n₁)
    (kept₁ : .removePeer cfg₁.nodeID ∉ changes₁)
    (started₂ : Started cfg₂ s₂) (reached₂ : execute evolve s₂ changes₂ = some n₂)
    (kept₂ : .removePeer cfg₂.nodeID ∉ changes₂)
    (among : n₁.members.Subperm n₂.members) (close : n₂.members.length ≤ n₁.members.length + 1)
    {op₁ op₂ : Op} {env₁ env₂ : WriteEnv} (first : n₁.Succeeds op₁ env₁)
    (second : n₂.Succeeds op₂ env₂) :
    ∃ id ∈ n₁.members, acknowledges cfg₁.nodeID env₁.answered id = true ∧
      acknowledges cfg₂.nodeID env₂.answered id = true := by
  obtain ⟨config₁, own₁⟩ := own_of_run started₁ reached₁ kept₁
  obtain ⟨config₂, own₂⟩ := own_of_run started₂ reached₂ kept₂
  have majority₁ := majority_of_succeeds (config₁ ▸ own₁) first
  have majority₂ := majority_of_succeeds (config₂ ▸ own₂) second
  rw [config₁] at majority₁
  rw [config₂] at majority₂
  exact majority₁.meet among close majority₂

end Node

/-- A node that is opened on an empty directory, with two others. -/
def memberConfig (id : String) : Config :=
  ⟨id, "node", "127.0.0.1:0", true, [⟨"n1", "h1"⟩, ⟨"n2", "h2"⟩, ⟨"n3", "h3"⟩]⟩

def memberNode (id : String) : Node :=
  ⟨memberConfig id, (Raft.fresh (memberConfig id)).bootstrapTerm (memberConfig id), .empty⟩

theorem memberNode_started {id : String} (named : id ∈ ["n1", "n2", "n3"]) :
    Node.Started (memberConfig id) (memberNode id) := by
  simp only [List.mem_cons, List.not_mem_nil, or_false] at named
  rcases named with rfl | rfl | rfl <;> rfl

/-- A peer that is added twice, then removed and added twice again. -/
def peerMoves : List Change :=
  [.addPeer ⟨"n4", "h4"⟩, .addPeer ⟨"n4", "h5"⟩, .op (.put "k" [1] ⟨.ok, ["n2", "n3"]⟩),
    .removePeer "n4", .addPeer ⟨"n4", "h6"⟩, .addPeer ⟨"n4", "h7"⟩]

/-- The address is that of the first addition after the removal. -/
theorem roster_follows_changes_sample :
    ∃ last, execute Node.evolve (memberNode "n1") peerMoves = some last ∧
      rosterOf last.peers "n4" = some "h6" ∧ (last.peers.map Peer.id).Nodup := by
  obtain ⟨last, reached⟩ : ∃ last, execute Node.evolve (memberNode "n1") peerMoves = some last :=
    ⟨_, rfl⟩
  obtain ⟨roster, distinct⟩ :=
    Node.roster_follows_changes (memberNode_started (by decide)) reached
  exact ⟨last, reached, (congrFun roster "n4").trans rfl, distinct (by decide)⟩

/-- The second node has one member more; its write is acknowledged by two others. -/
theorem quorums_meet_sample :
    ∃ id ∈ (memberNode "n1").members, Node.acknowledges "n1" ["n2"] id = true ∧
      Node.acknowledges "n3" ["n2", "n4"] id = true := by
  have grown : execute Node.evolve (memberNode "n3") [.addPeer ⟨"n4", "h4"⟩] =
      some { memberNode "n3" with raft := (memberNode "n3").raft.addPeer ⟨"n4", "h4"⟩ } := rfl
  have first : (memberNode "n1").Succeeds (.put "k" [1] ⟨.ok, ["n2"]⟩) ⟨.ok, ["n2"]⟩ :=
    ⟨⟨_, rfl⟩, nofun⟩
  have second : Node.Succeeds
      { memberNode "n3" with raft := (memberNode "n3").raft.addPeer ⟨"n4", "h4"⟩ }
      (.put "k" [2] ⟨.ok, ["n2", "n4"]⟩) ⟨.ok, ["n2", "n4"]⟩ := ⟨⟨_, rfl⟩, nofun⟩
  exact Node.quorums_meet (memberNode_started (by decide)) (execute_nil Node.evolve _) nofun
    (memberNode_started (by decide)) grown (by decide) (List.Sublist.subperm (by decide))
    (by decide) first second

end MiniCloud.Db
