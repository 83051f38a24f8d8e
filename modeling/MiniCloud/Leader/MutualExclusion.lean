import MiniCloud.Leader.Election

/-!
# Mutual exclusion of leaders

A record in the store is a lease of its node until its expiry.  A tick respects the
lease of another node only while the term in it is at least its own, and the first
claim is an unconditional `Put`; so a lease can be taken over while it runs.  When
no tick contests a running lease of another node, no claim overwrites a record, and
no node takes the lead after its record was replaced, at most one node at a time
leads on a running lease.
-/

namespace MiniCloud.Leader

open MiniCloud.Library

namespace Cluster

/-- A running lease of another node is not contested, a first claim finds no record,
and a node takes the lead while its record is still the stored one. -/
def Respectful (c : Cluster) : Act → Prop
  | .pass _ => True
  | .tick id reachable =>
      match (c.nodes id).tick with
      | .drafted now cur =>
          ∀ stored ∈ c.record,
            stored.1.nodeID = id ∨ stored.1.expiry ≤ now ∨ cur.term ≤ stored.1.term
      | .claiming _ _ => reachable = true → c.record = none
      | .won _ => (c.nodes id).lastWrite.map Prod.fst = some c.version
      | _ => True

instance (c : Cluster) (act : Act) : Decidable (c.Respectful act) :=
  match act with
  | .pass _ => inferInstanceAs (Decidable True)
  | .tick id reachable =>
      match isTick : (c.nodes id).tick with
      | .drafted now cur =>
          decidable_of_iff (∀ stored ∈ c.record,
            stored.1.nodeID = id ∨ stored.1.expiry ≤ now ∨ cur.term ≤ stored.1.term)
            (by simp only [Respectful, isTick])
      | .claiming _ _ =>
          decidable_of_iff (reachable = true → c.record = none)
            (by simp only [Respectful, isTick])
      | .won _ =>
          decidable_of_iff ((c.nodes id).lastWrite.map Prod.fst = some c.version)
            (by simp only [Respectful, isTick])
      | .idle | .candidate | .timed _ | .following _ _ | .swapping _ _ _ =>
          isTrue (by simp only [Respectful, isTick])

/-- What a tick in progress relies on. -/
def Sound (clock : Int) (stored : Option (LeaderRecord × Nat)) (version : Nat) (id : String) :
    Tick → Prop
  | .timed now => now ≤ clock
  | .drafted now cur => now ≤ clock ∧ cur.nodeID = id
  | .claiming _ cur => cur.nodeID = id
  | .swapping now cur v =>
      now ≤ clock ∧ cur.nodeID = id ∧ v ≤ version ∧
        ∀ r, stored = some (r, v) → r.nodeID = id ∨ r.expiry ≤ now
  | _ => True

/-- The last record of the node is the stored one, or it was replaced and has
expired. -/
structure Leased (clock : Int) (stored : Option (LeaderRecord × Nat)) (version : Nat)
    (id : String) (e : Election) : Prop where
  written : ∀ v expiry, e.lastWrite = some (v, expiry) →
    (∃ r, stored = some (r, v) ∧ r.nodeID = id ∧ r.expiry = expiry) ∨
      (v < version ∧ expiry ≤ clock)
  sound : Sound clock stored version id e.tick

namespace Leased

variable {clock : Int} {stored : Option (LeaderRecord × Nat)} {version : Nat} {id : String}
  {e : Election}

theorem boot (ttl : Int) : Leased clock stored version id (newElection ttl) := by
  refine ⟨?_, trivial⟩
  intro v expiry none
  cases none

theorem passed (leased : Leased clock stored version id e) (duration : Nat) :
    Leased (clock + duration) stored version id e := by
  have later : clock ≤ clock + duration := Int.le_add_of_nonneg_right (Int.natCast_nonneg _)
  refine ⟨?_, ?_⟩
  · intro v expiry isLast
    rcases leased.written v expiry isLast with current | ⟨replaced, expired⟩
    · exact Or.inl current
    · exact Or.inr ⟨replaced, Int.le_trans expired later⟩
  · have sound := leased.sound
    cases stage : e.tick with
    | timed now =>
        rw [stage] at sound
        exact Int.le_trans sound later
    | drafted now cur =>
        rw [stage] at sound
        exact ⟨Int.le_trans sound.1 later, sound.2⟩
    | swapping now cur v =>
        rw [stage] at sound
        exact ⟨Int.le_trans sound.1 later, sound.2⟩
    | claiming now cur =>
        rw [stage] at sound
        exact sound
    | idle | candidate | following | won => trivial

/-- A record of another node replaces the stored one, which has expired if it was
this node's. -/
theorem replaced (leased : Leased clock stored version id e) (cur : LeaderRecord)
    (atVersion : ∀ r v, stored = some (r, v) → v = version)
    (expired : ∀ r v, stored = some (r, v) → r.nodeID = id → r.expiry ≤ clock) :
    Leased clock (some (cur, version + 1)) (version + 1) id e := by
  refine ⟨?_, ?_⟩
  · intro v expiry isLast
    refine Or.inr ?_
    rcases leased.written v expiry isLast with ⟨r, found, isOwn, isExpiry⟩ | ⟨below, past⟩
    · have isVersion := atVersion r v found
      have past := expired r v found isOwn
      exact ⟨by omega, by omega⟩
    · exact ⟨by omega, past⟩
  · have sound := leased.sound
    cases stage : e.tick with
    | swapping now mine v =>
        rw [stage] at sound
        obtain ⟨timely, named, known, _⟩ := sound
        refine ⟨timely, named, by omega, ?_⟩
        intro r found
        -- the new record has a version that no tick in progress has read
        have isNew : version + 1 = v := by
          cases found
          rfl
        omega
    | timed | drafted | claiming =>
        rw [stage] at sound
        exact sound
    | idle | candidate | following | won => trivial

/-- The node that ticks keeps its part of the invariant. -/
theorem of_part {c : Cluster} {reachable : Bool} {kv : VersionedMap String LeaderRecord}
    {before : Election} (leased : Leased c.clock c.record c.version id before)
    (isNode : c.nodes id = before) (respectful : c.Respectful (.tick id reachable))
    (part : Part c id before reachable e kv) :
    Leased c.clock (kv.lookup (leaderKey c.group)) (kv.version (leaderKey c.group)) id e := by
  obtain ⟨written, sound⟩ := leased
  have wrote (now : Int) (cur : LeaderRecord) (named : cur.nodeID = id) :
      Leased c.clock ((c.kv.put (leaderKey c.group) cur).lookup (leaderKey c.group))
        ((c.kv.put (leaderKey c.group) cur).version (leaderKey c.group)) id
        { before with tick := .won now, lastWrite := some (c.version + 1, cur.expiry) } := by
    refine ⟨?_, trivial⟩
    intro v expiry isLast
    cases isLast
    exact Or.inl ⟨cur, VersionedMap.lookup_put_self _ _ _, named, rfl⟩
  cases part with
  | start stage => exact ⟨written, trivial⟩
  | readClock stage => exact ⟨written, Int.le_refl _⟩
  | draft stage =>
      rw [stage] at sound
      exact ⟨written, sound, rfl⟩
  | giveUp => exact ⟨written, trivial⟩
  | absent stage none =>
      rw [stage] at sound
      exact ⟨written, sound.2⟩
  | yield => exact ⟨written, trivial⟩
  | @contest now cur prev v stage found outbids =>
      rw [stage] at sound
      refine ⟨written, sound.1, sound.2, Nat.le_of_eq (version_of_record found), ?_⟩
      intro r isRecord
      have isPrev : r = prev := by
        have same : c.record = some (r, v) := isRecord
        rw [found] at same
        cases same
        rfl
      rw [isPrev]
      simp only [Respectful, isNode, stage] at respectful
      rcases respectful (prev, v) found with own | expired | yields
      · exact Or.inl own
      · exact Or.inr expired
      · refine Or.inr (Int.not_lt.mp ?_)
        intro unexpired
        exact absurd yields (Nat.not_le.mpr (outbids unexpired))
  | follow stage => exact ⟨written, trivial⟩
  | claim stage reached =>
      rw [stage] at sound
      exact wrote _ _ sound
  | swap stage =>
      rw [stage] at sound
      exact wrote _ _ sound.2.1
  | lead stage => exact ⟨written, trivial⟩

/-- The other nodes keep theirs. -/
theorem of_other_part {c : Cluster} {ticking : String} {reachable : Bool}
    {kv : VersionedMap String LeaderRecord} {before after : Election}
    (leased : Leased c.clock c.record c.version id e) (different : id ≠ ticking)
    (sound : Sound c.clock c.record c.version ticking before.tick)
    (isNode : c.nodes ticking = before) (respectful : c.Respectful (.tick ticking reachable))
    (part : Part c ticking before reachable after kv) :
    Leased c.clock (kv.lookup (leaderKey c.group)) (kv.version (leaderKey c.group)) id e := by
  have overwritten (cur : LeaderRecord)
      (expired : ∀ r v, c.record = some (r, v) → r.nodeID = id → r.expiry ≤ c.clock) :
      Leased c.clock ((c.kv.put (leaderKey c.group) cur).lookup (leaderKey c.group))
        ((c.kv.put (leaderKey c.group) cur).version (leaderKey c.group)) id e := by
    rw [VersionedMap.lookup_put_self, VersionedMap.version_put_self]
    exact leased.replaced cur (fun _ _ found => version_of_record found) expired
  cases part with
  | claim stage reached =>
      simp only [Respectful, isNode, stage] at respectful
      refine overwritten _ ?_
      intro r v found
      rw [respectful reached] at found
      cases found
  | swap stage =>
      rw [stage] at sound
      obtain ⟨timely, _, _, justified⟩ := sound
      refine overwritten _ ?_
      intro r v found isOwn
      have isVersion := version_of_record found
      subst isVersion
      rcases justified r found with ticks | expired
      · exact absurd (isOwn.symm.trans ticks) different
      · exact Int.le_trans expired timely
  | start | readClock | draft | giveUp | absent | yield | contest | follow | lead =>
      exact leased

theorem of_transition {c next : Cluster} {act : Act}
    (leased : ∀ id, Leased c.clock c.record c.version id (c.nodes id))
    (respectful : c.Respectful act) (moved : Transition c act next) :
    ∀ id, Leased next.clock next.record next.version id (next.nodes id) := by
  refine each_of_transition (P := Leased) moved ?_ ?_
  · intro duration id isPass
    exact (leased id).passed duration
  · intro id reachable e kv isTick part
    subst isTick
    refine ⟨(leased id).of_part rfl respectful part, ?_⟩
    intro other different
    exact (leased other).of_other_part different (leased id).sound rfl respectful part

end Leased

/-- The node is in state `Leader` and the expiry that it wrote last is in the
future. -/
def Leads (c : Cluster) (id : String) : Prop :=
  c.isLeader id = true ∧ ∃ v expiry, (c.nodes id).lastWrite = some (v, expiry) ∧ c.clock < expiry

/-- A node whose record is the stored one is the only one with a running lease. -/
theorem not_leads_of_stored {c : Cluster} {id other : String} {expiry : Int}
    (leased : ∀ id, Leased c.clock c.record c.version id (c.nodes id))
    (isStored : (c.nodes id).lastWrite = some (c.version, expiry)) (different : other ≠ id) :
    ¬ c.Leads other := by
  rintro ⟨_, v, otherExpiry, isLast, running⟩
  rcases (leased id).written c.version expiry isStored with ⟨r, found, isOwn, _⟩ | ⟨below, _⟩
  · rcases (leased other).written v otherExpiry isLast with
      ⟨r', found', isOthers, _⟩ | ⟨_, expired⟩
    · have same : r' = r := by
        rw [found] at found'
        cases found'
        rfl
      exact different (isOthers.symm.trans (same ▸ isOwn))
    · exact absurd running (Int.not_lt.mpr expired)
  · exact absurd below (Nat.lt_irrefl _)

/-- Only the last part of a tick puts a node in state `Leader`. -/
theorem won_of_elected {c : Cluster} {id : String} {reachable : Bool} {e : Election}
    {kv : VersionedMap String LeaderRecord} (part : Part c id (c.nodes id) reachable e kv)
    (before : (c.nodes id).state ≠ .leader) (after : e.state = .leader) :
    kv = c.kv ∧ e.lastWrite = (c.nodes id).lastWrite ∧ ∃ now, (c.nodes id).tick = .won now := by
  cases part with
  | lead stage => exact ⟨rfl, rfl, _, stage⟩
  | start | follow => cases after
  | readClock | draft | giveUp | absent | yield | contest | claim | swap =>
      exact absurd after before

/-- In every run, with any clock and any interleaving of ticks, in which no tick
contests a running lease of another node, no claim overwrites a record, and no node
takes the lead after its record was replaced: when a tick puts a node in state
`Leader`, no other node is in state `Leader` with its lease still running. -/
theorem elected_alone {group : String} {clock : Int} {kv : VersionedMap String LeaderRecord}
    {ttl : String → Int} {acts : List Act} {c next : Cluster} {id : String} {reachable : Bool}
    (respectful : Guarded step Respectful (boot group clock kv ttl)
      (acts ++ [.tick id reachable]))
    (reached : execute step (boot group clock kv ttl) acts = some c)
    (ticked : c.step (.tick id reachable) = some next)
    (before : (c.nodes id).state ≠ .leader) (after : (next.nodes id).state = .leader) :
    ∀ other, other ≠ id → ¬ next.Leads other := by
  intro other different
  obtain ⟨respectfulRun, respectfulTick, _⟩ := (guarded_append step reached).mp respectful
  have leased := invariant_of_guarded step
    (fun c => ∀ id, Leased c.clock c.record c.version id (c.nodes id))
    (fun _ _ _ leased respectful stepped =>
      Leased.of_transition leased respectful (transition_of_step stepped))
    (fun id => Leased.boot (ttl id)) respectfulRun reached
  have leasedNext := Leased.of_transition leased respectfulTick (transition_of_step ticked)
  cases transition_of_step ticked with
  | @ticked _ _ e kv part =>
      have isNext : (Function.update c.nodes id e) id = e := Function.update_self _ _ _
      change ((Function.update c.nodes id e) id).state = .leader at after
      rw [isNext] at after
      obtain ⟨sameStore, sameWrite, now, stage⟩ := won_of_elected part before after
      subst sameStore
      simp only [Respectful, stage] at respectfulTick
      obtain ⟨⟨v, expiry⟩, isLast, isVersion⟩ := Option.map_eq_some_iff.mp respectfulTick
      dsimp only at isVersion
      subst isVersion
      have isStored : ((Function.update c.nodes id e) id).lastWrite =
          some (c.version, expiry) := by
        rw [isNext, sameWrite, isLast]
      exact not_leads_of_stored leasedNext isStored different

theorem elected_alone_after_expiry :
    ∃ c next, execute step smallCluster
        (fullTick "a" ++ [.pass 10] ++ List.replicate 5 (.tick "b" true)) = some c ∧
      c.step (.tick "b" true) = some next ∧ (next.nodes "b").state = .leader ∧
      ∀ other, other ≠ "b" → ¬ next.Leads other := by
  obtain ⟨c, reached, before, after⟩ := exists_of_execute_test step smallCluster
    (fullTick "a" ++ [.pass 10] ++ List.replicate 5 (.tick "b" true))
    (fun c => (c.nodes "b").state ≠ .leader ∧
      (c.step (.tick "b" true)).map (fun next => (next.nodes "b").state) = some .leader)
    (by decide)
  obtain ⟨next, ticked, leads⟩ := Option.map_eq_some_iff.mp after
  exact ⟨c, next, reached, ticked, leads, elected_alone (guarded_of_check step (by decide))
    reached ticked before leads⟩

/-- The second tick of a follower takes over the running lease of the leader. -/
theorem lease_taken_over_while_running :
    ∃ c next, execute step smallCluster
        (fullTick "a" ++ List.replicate 10 (.tick "b" true)) = some c ∧
      c.step (.tick "b" true) = some next ∧
      (c.nodes "b").state ≠ .leader ∧ (next.nodes "b").state = .leader ∧ next.Leads "a" := by
  obtain ⟨c, reached, before, after⟩ := exists_of_execute_test step smallCluster
    (fullTick "a" ++ List.replicate 10 (.tick "b" true))
    (fun c => (c.nodes "b").state ≠ .leader ∧
      (c.step (.tick "b" true)).map (fun next => decide ((next.nodes "b").state = .leader ∧
        next.isLeader "a" = true ∧ (next.nodes "a").lastWrite = some (1, 5) ∧
        next.clock < 5)) = some true)
    (by decide)
  obtain ⟨next, ticked, tested⟩ := Option.map_eq_some_iff.mp after
  obtain ⟨leads, otherLeads, isLast, running⟩ := of_decide_eq_true tested
  exact ⟨c, next, reached, ticked, before, leads, otherLeads, 1, 5, isLast, running⟩

end Cluster

end MiniCloud.Leader
