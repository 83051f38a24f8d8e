import MiniCloud.Leader.Election

/-!
# A node that nobody opposes takes the lead

A tick that finds a running lease makes the node a follower and gives it the term of the
record.  Its next tick is therefore one term ahead of the record, and contests it whether
the lease has run out or not.  So a node that reaches the store, and whose group writes
nothing else meanwhile, has its own record in the store after at most two of its ticks,
and from then on it is the leader whenever it is between ticks.
-/

namespace MiniCloud.Leader

open MiniCloud.Library

/-- The act is a part of a tick of the node. -/
def Act.ofNode (id : String) : Act → Bool
  | .pass _ => false
  | .tick other _ => other = id

namespace Cluster

/-- `GetLeader`; without a record it returns the error of the store. -/
def getLeader (c : Cluster) : Option LeaderRecord := c.record.map Prod.fst

/-- The part of the tick is the node's own and reaches the store, or it leaves the store as
it is. -/
def Unopposed (id : String) (c : Cluster) : Act → Prop
  | .pass _ => True
  | .tick other reachable =>
      if other = id then reachable = true else (c.proceed other reachable).2 = c.kv

instance (id : String) (c : Cluster) (act : Act) : Decidable (Unopposed id c act) :=
  match act with
  | .pass _ => inferInstanceAs (Decidable True)
  | .tick other reachable =>
      inferInstanceAs (Decidable
        (if other = id then reachable = true else (c.proceed other reachable).2 = c.kv))

/-! ## On the way to the record -/

/-- A stored record is outbid by the term. -/
def Outbid (stored : Option (LeaderRecord × Nat)) (term : Nat) : Prop :=
  ∀ prev v, stored = some (prev, v) → prev.term < term

/-- The node has this many parts of ticks before it at most until its record is stored. -/
inductive Due (id : String) (stored : Option (LeaderRecord × Nat)) (e : Election) : Nat → Prop where
  | claiming {now : Int} {cur : LeaderRecord} (stage : e.tick = .claiming now cur)
      (own : cur.nodeID = id) (term : cur.term = e.term) : Due id stored e 1
  | swapping {now : Int} {cur prev : LeaderRecord} {v : Nat} (stage : e.tick = .swapping now cur v)
      (own : cur.nodeID = id) (term : cur.term = e.term) (found : stored = some (prev, v)) :
      Due id stored e 1
  | drafted {now : Int} {cur : LeaderRecord} (stage : e.tick = .drafted now cur)
      (own : cur.nodeID = id) (term : cur.term = e.term) (outbid : Outbid stored cur.term) :
      Due id stored e 2
  | timed {now : Int} (stage : e.tick = .timed now) (outbid : Outbid stored (e.term + 1)) :
      Due id stored e 3
  | candidate (stage : e.tick = .candidate) (outbid : Outbid stored (e.term + 1)) :
      Due id stored e 4
  | idle (stage : e.tick = .idle) (outbid : Outbid stored (e.term + 1)) : Due id stored e 5
  | following {now : Int} {prev : LeaderRecord} {v : Nat} (stage : e.tick = .following now prev)
      (found : stored = some (prev, v)) : Due id stored e 6
  | draftedBehind {now : Int} {cur : LeaderRecord} (stage : e.tick = .drafted now cur)
      (own : cur.nodeID = id) (term : cur.term = e.term) : Due id stored e 7
  | timedBehind {now : Int} (stage : e.tick = .timed now) : Due id stored e 8
  | candidateBehind (stage : e.tick = .candidate) : Due id stored e 9
  | idleBehind (stage : e.tick = .idle) : Due id stored e 10

/-- The record of the node is stored, and its ticks renew it. -/
structure Settled (id : String) (stored : Option (LeaderRecord × Nat)) (e : Election) : Prop where
  named : ∃ r v, stored = some (r, v) ∧ r.nodeID = id ∧ r.term ≤ e.term
  leads : e.tick = .idle → e.state = .leader
  notClaiming : ∀ now cur, e.tick ≠ .claiming now cur
  notFollowing : ∀ now prev, e.tick ≠ .following now prev
  drafted : ∀ now cur, e.tick = .drafted now cur →
    cur.nodeID = id ∧ cur.term = e.term ∧ Outbid stored cur.term
  swapping : ∀ now cur v, e.tick = .swapping now cur v →
    cur.nodeID = id ∧ cur.term = e.term ∧ ∃ r, stored = some (r, v)

variable {c : Cluster} {id : String} {k : Nat}

/-- The store as the next part of the tick leaves it. -/
def storedAfter (c : Cluster) (id : String) (reachable : Bool) : Option (LeaderRecord × Nat) :=
  (c.proceed id reachable).2.lookup (leaderKey c.group)

/-- The node has written its record. -/
theorem settled_of_put {now : Int} {cur : LeaderRecord} {e : Election} {v : Nat}
    (stage : e.tick = .won now) (own : cur.nodeID = id) (term : cur.term = e.term) :
    Settled id (some (cur, v)) e where
  named := ⟨cur, v, rfl, own, Nat.le_of_eq term⟩
  leads := by simp [stage]
  notClaiming := by simp [stage]
  notFollowing := by simp [stage]
  drafted := by simp [stage]
  swapping := by simp [stage]

/-! ### The parts of a tick that reaches the store -/

theorem proceed_idle (stage : (c.nodes id).tick = .idle) :
    c.proceed id true = ({ c.nodes id with state := .candidate, tick := .candidate }, c.kv) := by
  simp [proceed, stage]

theorem proceed_candidate (stage : (c.nodes id).tick = .candidate) :
    c.proceed id true = ({ c.nodes id with tick := .timed c.clock }, c.kv) := by
  simp [proceed, stage]

theorem proceed_timed {now : Int} (stage : (c.nodes id).tick = .timed now) :
    c.proceed id true =
      ({ c.nodes id with
        term := (c.nodes id).term + 1
        tick := .drafted now ⟨id, (c.nodes id).term + 1, now + (c.nodes id).ttl⟩ }, c.kv) := by
  simp [proceed, stage]

theorem proceed_following {now : Int} {prev : LeaderRecord}
    (stage : (c.nodes id).tick = .following now prev) :
    c.proceed id true =
      ({ c.nodes id with state := .follower, term := prev.term, lastSeen := now, tick := .idle },
        c.kv) := by
  simp [proceed, stage]

theorem proceed_claiming {now : Int} {cur : LeaderRecord}
    (stage : (c.nodes id).tick = .claiming now cur) :
    c.proceed id true =
      ({ c.nodes id with tick := .won now, lastWrite := some (c.version + 1, cur.expiry) },
        c.kv.put (leaderKey c.group) cur) := by
  simp [proceed, stage]

/-- A write at the version that was read stores the record. -/
theorem proceed_swapping {now : Int} {cur prev : LeaderRecord} {v : Nat}
    (stage : (c.nodes id).tick = .swapping now cur v) (found : c.record = some (prev, v)) :
    c.proceed id true =
      ({ c.nodes id with tick := .won now, lastWrite := some (v + 1, cur.expiry) },
        c.kv.put (leaderKey c.group) cur) := by
  have current : c.kv.version (leaderKey c.group) = v := (version_of_record found).symm
  simp [proceed, stage, VersionedMap.compareAndSwap, current]

theorem proceed_won {now : Int} (stage : (c.nodes id).tick = .won now) :
    c.proceed id true =
      ({ c.nodes id with state := .leader, lastSeen := now, tick := .idle }, c.kv) := by
  simp [proceed, stage]

/-! ### One part of a tick -/

/-- A draft that outbids the record goes on to write. -/
theorem due_of_drafted {now : Int} {cur : LeaderRecord}
    (stage : (c.nodes id).tick = .drafted now cur) (own : cur.nodeID = id)
    (term : cur.term = (c.nodes id).term)
    (contests : ∀ prev v, c.record = some (prev, v) → ¬(now < prev.expiry ∧ cur.term ≤ prev.term)) :
    Due id (c.storedAfter id true) (c.proceed id true).1 1 := by
  unfold storedAfter
  cases found : c.record with
  | none =>
      have next : c.proceed id true = ({ c.nodes id with tick := .claiming now cur }, c.kv) := by
        simp [proceed, stage, found]
      rw [next]
      exact .claiming rfl own term
  | some stored =>
      obtain ⟨prev, v⟩ := stored
      have next : c.proceed id true = ({ c.nodes id with tick := .swapping now cur v }, c.kv) := by
        simp [proceed, stage, found, contests prev v found]
      rw [next]
      exact .swapping rfl own term found

/-- A part of its own tick takes the node closer to its record. -/
theorem Due.own (due : Due id c.record (c.nodes id) k) :
    Settled id (c.storedAfter id true) (c.proceed id true).1 ∨
      ∃ j, j < k ∧ Due id (c.storedAfter id true) (c.proceed id true).1 j := by
  cases due with
  | claiming stage own term =>
      refine .inl ?_
      rw [storedAfter, proceed_claiming stage, VersionedMap.lookup_put_self]
      exact settled_of_put rfl own term
  | swapping stage own term found =>
      refine .inl ?_
      rw [storedAfter, proceed_swapping stage found, VersionedMap.lookup_put_self]
      exact settled_of_put rfl own term
  | drafted stage own term outbid =>
      refine .inr ⟨1, by decide, due_of_drafted stage own term ?_⟩
      rintro prev v found ⟨_, notAhead⟩
      exact absurd (outbid prev v found) (Nat.not_lt.mpr notAhead)
  | timed stage outbid =>
      refine .inr ⟨2, by decide, ?_⟩
      rw [storedAfter, proceed_timed stage]
      exact .drafted rfl rfl rfl outbid
  | candidate stage outbid =>
      refine .inr ⟨3, by decide, ?_⟩
      rw [storedAfter, proceed_candidate stage]
      exact .timed rfl outbid
  | idle stage outbid =>
      refine .inr ⟨4, by decide, ?_⟩
      rw [storedAfter, proceed_idle stage]
      exact .candidate rfl outbid
  | @following now prev v stage found =>
      refine .inr ⟨5, by decide, ?_⟩
      rw [storedAfter, proceed_following stage]
      refine .idle rfl ?_
      -- the node has taken over the term of the record
      intro other w isStored
      have both : some (prev, v) = some (other, w) := found.symm.trans isStored
      cases both
      exact Nat.lt_succ_self _
  | @draftedBehind now cur stage own term =>
      by_cases yields : ∃ prev v, c.record = some (prev, v) ∧ now < prev.expiry ∧ cur.term ≤ prev.term
      · obtain ⟨prev, v, found, yields⟩ := yields
        refine .inr ⟨6, by decide, ?_⟩
        have next : c.proceed id true = ({ c.nodes id with tick := .following now prev }, c.kv) := by
          simp [proceed, stage, found, yields]
        rw [storedAfter, next]
        exact .following rfl found
      · refine .inr ⟨1, by decide, due_of_drafted stage own term ?_⟩
        intro prev v found held
        exact yields ⟨prev, v, found, held⟩
  | timedBehind stage =>
      refine .inr ⟨7, by decide, ?_⟩
      rw [storedAfter, proceed_timed stage]
      exact .draftedBehind rfl rfl rfl
  | candidateBehind stage =>
      refine .inr ⟨8, by decide, ?_⟩
      rw [storedAfter, proceed_candidate stage]
      exact .timedBehind rfl
  | idleBehind stage =>
      refine .inr ⟨9, by decide, ?_⟩
      rw [storedAfter, proceed_idle stage]
      exact .candidateBehind rfl

/-- A settled node stays settled when it changes to a stage about which nothing is asked. -/
theorem Settled.move {stored : Option (LeaderRecord × Nat)} {e e' : Election}
    (settled : Settled id stored e) (sameTerm : e.term ≤ e'.term)
    (leads : e'.tick = .idle → e'.state = .leader)
    (free : e'.tick = .candidate ∨ (∃ now, e'.tick = .timed now) ∨ e'.tick = .idle) :
    Settled id stored e' := by
  obtain ⟨r, v, found, own, below⟩ := settled.named
  refine ⟨⟨r, v, found, own, Nat.le_trans below sameTerm⟩, leads, ?_, ?_, ?_, ?_⟩ <;>
    rcases free with stage | ⟨now, stage⟩ | stage <;> simp [stage]

/-- Its own ticks renew the record of a settled node. -/
theorem Settled.own (settled : Settled id c.record (c.nodes id)) :
    Settled id (c.storedAfter id true) (c.proceed id true).1 := by
  obtain ⟨r, v, found, own, below⟩ := settled.named
  cases stage : (c.nodes id).tick with
  | idle =>
      rw [storedAfter, proceed_idle stage]
      exact settled.move (Nat.le_refl _) (by rintro ⟨⟩) (.inl rfl)
  | candidate =>
      rw [storedAfter, proceed_candidate stage]
      exact settled.move (Nat.le_refl _) (by rintro ⟨⟩) (.inr (.inl ⟨_, rfl⟩))
  | timed now =>
      rw [storedAfter, proceed_timed stage]
      refine ⟨⟨r, v, found, own, Nat.le_succ_of_le below⟩, by rintro ⟨⟩, by rintro _ _ ⟨⟩,
        by rintro _ _ ⟨⟩, ?_, by rintro _ _ _ ⟨⟩⟩
      intro at_ cur isDraft
      cases isDraft
      refine ⟨rfl, rfl, ?_⟩
      intro prev w isStored
      have both : some (r, v) = some (prev, w) := found.symm.trans isStored
      cases both
      exact Nat.lt_succ_of_le below
  | drafted now cur =>
      obtain ⟨isOwn, term, outbid⟩ := settled.drafted now cur stage
      have next : c.proceed id true = ({ c.nodes id with tick := .swapping now cur v }, c.kv) := by
        have notAhead : ¬cur.term ≤ r.term := Nat.not_le.mpr (outbid r v found)
        simp [proceed, stage, found, notAhead]
      rw [storedAfter, next]
      refine ⟨⟨r, v, found, own, below⟩, by rintro ⟨⟩, by rintro _ _ ⟨⟩, by rintro _ _ ⟨⟩,
        by rintro _ _ ⟨⟩, ?_⟩
      intro at_ other w isSwap
      cases isSwap
      exact ⟨isOwn, term, r, found⟩
  | following now prev => exact absurd stage (settled.notFollowing now prev)
  | claiming now cur => exact absurd stage (settled.notClaiming now cur)
  | swapping now cur w =>
      obtain ⟨isOwn, term, prev, isStored⟩ := settled.swapping now cur w stage
      rw [storedAfter, proceed_swapping stage isStored, VersionedMap.lookup_put_self]
      exact settled_of_put rfl isOwn term
  | won now =>
      rw [storedAfter, proceed_won stage]
      exact settled.move (Nat.le_refl _) (fun _ => rfl) (.inr (.inr rfl))

/-! ## Runs -/

/-- An unopposed act that is not the node's own leaves the record and the node as they are. -/
theorem frame_of_step {act : Act} {next : Cluster} (unopposed : Unopposed id c act)
    (others : act.ofNode id = false) (stepped : c.step act = some next) :
    next.record = c.record ∧ next.nodes id = c.nodes id := by
  cases act with
  | pass duration =>
      cases Option.some.inj stepped
      exact ⟨rfl, rfl⟩
  | tick other reachable =>
      have different : other ≠ id := of_decide_eq_false others
      have unwritten : (c.proceed other reachable).2 = c.kv := by
        rwa [Unopposed, if_neg different] at unopposed
      cases Option.some.inj stepped
      refine ⟨congrArg (fun kv => kv.lookup (leaderKey c.group)) unwritten, ?_⟩
      exact Function.update_of_ne (Ne.symm different) _ _

theorem own_of_step {act : Act} {next : Cluster} (unopposed : Unopposed id c act)
    (isOwn : act.ofNode id = true) (stepped : c.step act = some next) :
    next.record = c.storedAfter id true ∧ next.nodes id = (c.proceed id true).1 := by
  cases act with
  | pass duration => cases isOwn
  | tick other reachable =>
      have same : other = id := of_decide_eq_true isOwn
      subst same
      have reached : reachable = true := by rwa [Unopposed, if_pos rfl] at unopposed
      subst reached
      cases Option.some.inj stepped
      exact ⟨rfl, Function.update_self _ _ _⟩

theorem settled_of_run {last : Cluster} {acts : List Act}
    (settled : Settled id c.record (c.nodes id)) (unopposed : Guarded step (Unopposed id) c acts)
    (reached : execute step c acts = some last) : Settled id last.record (last.nodes id) := by
  refine invariant_of_guarded step (fun c => Settled id c.record (c.nodes id)) ?_ settled unopposed
    reached
  intro c act next settled unopposed stepped
  cases isOwn : act.ofNode id with
  | true =>
      obtain ⟨record, node⟩ := own_of_step unopposed isOwn stepped
      rw [record, node]
      exact settled.own
  | false =>
      obtain ⟨record, node⟩ := frame_of_step unopposed isOwn stepped
      rw [record, node]
      exact settled

/-- A node that is due settles as soon as it has had its parts. -/
theorem settled_of_due {last : Cluster} {acts : List Act} (due : Due id c.record (c.nodes id) k)
    (unopposed : Guarded step (Unopposed id) c acts) (enough : k ≤ acts.countP (Act.ofNode id))
    (reached : execute step c acts = some last) : Settled id last.record (last.nodes id) := by
  induction acts generalizing c k with
  | nil =>
      have none : k = 0 := Nat.le_zero.mp enough
      subst none
      cases due
  | cons act rest ih =>
      simp only [execute_cons, Option.bind_eq_some_iff] at reached
      obtain ⟨next, stepped, reached⟩ := reached
      have later := unopposed.2 next stepped
      rw [List.countP_cons] at enough
      cases isOwn : act.ofNode id with
      | true =>
          obtain ⟨record, node⟩ := own_of_step unopposed.1 isOwn stepped
          rw [isOwn, if_pos rfl] at enough
          rcases due.own with settled | ⟨j, fewer, closer⟩
          · exact settled_of_run (record ▸ node ▸ settled) later reached
          · exact ih (record ▸ node ▸ closer) later (by omega) reached
      | false =>
          obtain ⟨record, node⟩ := frame_of_step unopposed.1 isOwn stepped
          rw [isOwn, if_neg Bool.false_ne_true] at enough
          exact ih (record ▸ node ▸ due) later enough reached

/-- In every run in which a node that is between ticks takes ten or more parts of ticks, all of
them reaching the store while no other node writes to it, the record of the node is stored at
the end, and the node is the leader if it is between ticks again; the lease of another node
does not delay it. -/
theorem leads_when_unopposed {last : Cluster} {acts : List Act}
    (between : (c.nodes id).tick = .idle) (unopposed : Guarded step (Unopposed id) c acts)
    (enough : 10 ≤ acts.countP (Act.ofNode id)) (reached : execute step c acts = some last) :
    last.getLeader.map LeaderRecord.nodeID = some id ∧
      ((last.nodes id).tick = .idle → last.isLeader id = true) := by
  have settled := settled_of_due (.idleBehind between) unopposed enough reached
  obtain ⟨r, v, found, own, _⟩ := settled.named
  refine ⟨?_, fun idle => decide_eq_true (settled.leads idle)⟩
  rw [getLeader, found]
  exact congrArg some own

/-- Two ticks of `b` within one unit of time, while `a` gets as far as reading the record. -/
def challenge : List Act :=
  List.replicate 5 (.tick "b" true) ++ [.pass 1] ++ List.replicate 4 (.tick "a" true) ++ fullTick "b"

/-- The lease of `a` runs for five units, and `b` leads before they are over. -/
theorem leads_when_unopposed_sample :
    ∃ c last, execute step smallCluster (fullTick "a") = some c ∧
      execute step c challenge = some last ∧ last.clock < 5 ∧
      last.getLeader.map LeaderRecord.nodeID = some "b" ∧ last.isLeader "b" = true := by
  obtain ⟨c, first, idle, unopposed, tested⟩ := exists_of_execute_test step smallCluster (fullTick "a")
    (fun c => (c.nodes "b").tick = .idle ∧ checkGuarded step (Unopposed "b") c challenge = true ∧
      (execute step c challenge).map
        (fun last => decide (last.clock < 5 ∧ (last.nodes "b").tick = .idle)) = some true)
    (by decide)
  obtain ⟨last, reached, early, again⟩ := exists_of_execute_test step c challenge
    (fun last => last.clock < 5 ∧ (last.nodes "b").tick = .idle) tested
  obtain ⟨named, leads⟩ :=
    leads_when_unopposed idle (guarded_of_check step unopposed) (by decide) reached
  exact ⟨c, last, first, reached, early, named, leads again⟩

end Cluster

end MiniCloud.Leader
