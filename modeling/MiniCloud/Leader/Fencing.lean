import MiniCloud.Leader.Election

/-!
# Terms as fencing tokens

The term in the leader record is meant to grow whenever the leadership moves.  A
tick that finds a running lease compares the terms, but a tick that finds an expired
one writes its own counter without looking at the term in the record, and the first
claim overwrites whatever is stored.  When every expired record of another node is
contested with a larger term, and first claims find no record, the term never
decreases and grows with every change of the node.
-/

namespace MiniCloud.Leader

open MiniCloud.Library

/-- The term is kept by the same node, or it grows. -/
def LeaderRecord.Advances (r r' : LeaderRecord) : Prop :=
  r.term < r'.term ∨ (r.term = r'.term ∧ r.nodeID = r'.nodeID)

theorem LeaderRecord.Advances.refl (r : LeaderRecord) : r.Advances r := Or.inr ⟨rfl, rfl⟩

theorem LeaderRecord.Advances.trans {r r' r'' : LeaderRecord} (first : r.Advances r')
    (second : r'.Advances r'') : r.Advances r'' := by
  rcases first with grows | ⟨sameTerm, sameNode⟩
  · rcases second with growsMore | ⟨sameTerm, _⟩
    · exact Or.inl (Nat.lt_trans grows growsMore)
    · exact Or.inl (sameTerm ▸ grows)
  · rcases second with grows | ⟨sameTerm', sameNode'⟩
    · exact Or.inl (sameTerm ▸ grows)
    · exact Or.inr ⟨sameTerm.trans sameTerm', sameNode.trans sameNode'⟩

namespace Cluster

/-- An expired record of another node is contested with a larger term, and a first
claim finds no record. -/
def Outbidding (c : Cluster) : Act → Prop
  | .pass _ => True
  | .tick id reachable =>
      match (c.nodes id).tick with
      | .drafted now cur =>
          ∀ stored ∈ c.record,
            stored.1.nodeID = id ∨ now < stored.1.expiry ∨ stored.1.term < cur.term
      | .claiming _ _ => reachable = true → c.record = none
      | _ => True

instance (c : Cluster) (act : Act) : Decidable (c.Outbidding act) := by
  unfold Outbidding
  split
  · infer_instance
  · split <;> infer_instance

/-- What a tick in progress relies on: its term is the counter of the node, above
the terms that the node has stored before and, once it is swapping, above the term
of the record that it read. -/
def Bids (stored : Option (LeaderRecord × Nat)) (version : Nat) (id : String) (term : Nat) :
    Tick → Prop
  | .drafted _ cur =>
      cur.nodeID = id ∧ cur.term = term ∧
        ∀ r v, stored = some (r, v) → r.nodeID = id → r.term < term
  | .following _ prev => term ≤ prev.term
  | .claiming _ cur => cur.nodeID = id ∧ cur.term = term
  | .swapping _ cur v =>
      cur.nodeID = id ∧ cur.term = term ∧ v ≤ version ∧
        ∀ r, stored = some (r, v) → r.term < term
  | _ => True

/-- The counter of a node is not below the terms that it has stored. -/
structure Counted (stored : Option (LeaderRecord × Nat)) (version : Nat) (id : String)
    (e : Election) : Prop where
  own : ∀ r v, stored = some (r, v) → r.nodeID = id → r.term ≤ e.term
  bids : Bids stored version id e.term e.tick

namespace Counted

variable {stored : Option (LeaderRecord × Nat)} {version : Nat} {id : String} {e : Election}

theorem boot (ttl : Int) (absent : stored = none) :
    Counted stored version id (newElection ttl) := by
  refine ⟨?_, trivial⟩
  intro r v found
  rw [absent] at found
  cases found

/-- A record of another node replaces the stored one. -/
theorem replaced (counted : Counted stored version id e) {cur : LeaderRecord}
    (different : cur.nodeID ≠ id) : Counted (some (cur, version + 1)) (version + 1) id e := by
  refine ⟨?_, ?_⟩
  · intro r v found isOwn
    cases found
    exact absurd isOwn different
  · have bids := counted.bids
    cases stage : e.tick with
    | drafted now mine =>
        rw [stage] at bids
        refine ⟨bids.1, bids.2.1, ?_⟩
        intro r v found isOwn
        cases found
        exact absurd isOwn different
    | swapping now mine v =>
        rw [stage] at bids
        obtain ⟨named, counts, known, _⟩ := bids
        refine ⟨named, counts, Nat.le_succ_of_le known, ?_⟩
        intro r found
        have isNew : version + 1 = v := by
          cases found
          rfl
        omega
    | following | claiming =>
        rw [stage] at bids
        exact bids
    | idle | candidate | timed | won => trivial

/-- The node that ticks keeps its part of the invariant. -/
theorem of_part {c : Cluster} {reachable : Bool} {kv : VersionedMap String LeaderRecord}
    {before : Election} (counted : Counted c.record c.version id before)
    (isNode : c.nodes id = before) (outbidding : c.Outbidding (.tick id reachable))
    (part : Part c id before reachable e kv) :
    Counted (kv.lookup (leaderKey c.group)) (kv.version (leaderKey c.group)) id e := by
  obtain ⟨own, bids⟩ := counted
  have wrote (now : Int) (cur : LeaderRecord) (counts : cur.term = before.term) :
      Counted ((c.kv.put (leaderKey c.group) cur).lookup (leaderKey c.group))
        ((c.kv.put (leaderKey c.group) cur).version (leaderKey c.group)) id
        { before with tick := .won now, lastWrite := some (c.version + 1, cur.expiry) } := by
    refine ⟨?_, trivial⟩
    intro r v found _
    rw [VersionedMap.lookup_put_self] at found
    cases found
    exact Nat.le_of_eq counts
  cases part with
  | start stage => exact ⟨own, trivial⟩
  | readClock stage => exact ⟨own, trivial⟩
  | draft stage =>
      refine ⟨?_, rfl, rfl, ?_⟩
      · intro r v found isOwn
        exact Nat.le_succ_of_le (own r v found isOwn)
      · intro r v found isOwn
        exact Nat.lt_succ_of_le (own r v found isOwn)
  | giveUp => exact ⟨own, trivial⟩
  | absent stage none =>
      rw [stage] at bids
      exact ⟨own, bids.1, bids.2.1⟩
  | yield stage found unexpired ahead =>
      rw [stage] at bids
      exact ⟨own, bids.2.1 ▸ ahead⟩
  | @contest now cur prev v stage found outbids =>
      rw [stage] at bids
      obtain ⟨named, counts, above⟩ := bids
      refine ⟨own, named, counts, Nat.le_of_eq (version_of_record found), ?_⟩
      intro r isRecord
      have isPrev : r = prev := by
        have same : c.record = some (r, v) := isRecord
        rw [found] at same
        cases same
        rfl
      rw [isPrev]
      simp only [Outbidding, isNode, stage] at outbidding
      rcases outbidding (prev, v) found with isOwn | unexpired | larger
      · exact above prev v found isOwn
      · exact counts ▸ outbids unexpired
      · exact counts ▸ larger
  | follow stage =>
      rw [stage] at bids
      refine ⟨?_, trivial⟩
      intro r v found isOwn
      exact Nat.le_trans (own r v found isOwn) bids
  | claim stage reached =>
      rw [stage] at bids
      exact wrote _ _ bids.2
  | swap stage =>
      rw [stage] at bids
      exact wrote _ _ bids.2.1
  | lead stage => exact ⟨own, trivial⟩

/-- The other nodes keep theirs. -/
theorem of_other_part {c : Cluster} {ticking : String} {reachable : Bool}
    {kv : VersionedMap String LeaderRecord} {before after : Election}
    (counted : Counted c.record c.version id e) (different : id ≠ ticking)
    (bids : Bids c.record c.version ticking before.term before.tick)
    (part : Part c ticking before reachable after kv) :
    Counted (kv.lookup (leaderKey c.group)) (kv.version (leaderKey c.group)) id e := by
  have overwritten (cur : LeaderRecord) (named : cur.nodeID = ticking) :
      Counted ((c.kv.put (leaderKey c.group) cur).lookup (leaderKey c.group))
        ((c.kv.put (leaderKey c.group) cur).version (leaderKey c.group)) id e := by
    rw [VersionedMap.lookup_put_self, VersionedMap.version_put_self]
    exact counted.replaced fun same => different (same.symm.trans named)
  cases part with
  | claim stage reached =>
      rw [stage] at bids
      exact overwritten _ bids.1
  | swap stage =>
      rw [stage] at bids
      exact overwritten _ bids.1
  | start | readClock | draft | giveUp | absent | yield | contest | follow | lead =>
      exact counted

theorem of_transition {c next : Cluster} {act : Act}
    (counted : ∀ id, Counted c.record c.version id (c.nodes id))
    (outbidding : c.Outbidding act) (moved : Transition c act next) :
    ∀ id, Counted next.record next.version id (next.nodes id) := by
  refine each_of_transition (P := fun _ => Counted) moved ?_ ?_
  · intro duration id isPass
    exact counted id
  · intro id reachable e kv isTick part
    subst isTick
    refine ⟨(counted id).of_part rfl outbidding part, ?_⟩
    intro other different
    exact (counted other).of_other_part different (counted id).bids part

end Counted

/-- A step keeps the record or replaces it by one that advances it. -/
theorem advances_of_transition {c next : Cluster} {act : Act} {r : LeaderRecord} {v : Nat}
    (counted : ∀ id, Counted c.record c.version id (c.nodes id))
    (outbidding : c.Outbidding act) (moved : Transition c act next)
    (found : c.record = some (r, v)) :
    ∃ r' v', next.record = some (r', v') ∧ r.Advances r' := by
  have kept : ∃ r' v', c.record = some (r', v') ∧ r.Advances r' := ⟨r, v, found, .refl r⟩
  cases moved with
  | passed => exact kept
  | @ticked ticking reachable e kv part =>
      have bids := (counted ticking).bids
      cases part with
      | claim stage reached =>
          simp only [Outbidding, stage] at outbidding
          rw [outbidding reached] at found
          cases found
      | @swap now cur stage =>
          rw [stage] at bids
          obtain ⟨_, counts, _, above⟩ := bids
          have isVersion := version_of_record found
          subst isVersion
          refine ⟨cur, c.version + 1, VersionedMap.lookup_put_self _ _ _, Or.inl ?_⟩
          rw [counts]
          exact above r found
      | start | readClock | draft | giveUp | absent | yield | contest | follow | lead =>
          exact kept

end Cluster

end MiniCloud.Leader
