import MiniCloud.Db.Acknowledged
import MiniCloud.Db.ApplyOrder
import MiniCloud.Db.Watch

/-!
# What `fanout` can panic on

`fanout` dereferences every event that was queued and sends on every channel that
was registered.  A queued event is nil when a put was overtaken by a deletion
between its update of the store and the read that builds its event.  A channel
is closed when the timer of its `Watch` call fires, and it stays registered.
-/

namespace MiniCloud.Db

open MiniCloud.Library

/-- The event that belongs to an applied entry. -/
def LogEntry.event (e : LogEntry) : Entry :=
  match e.op with
  | .put => ⟨e.key, e.value, e.version, false⟩
  | .del => ⟨e.key, [], e.version, true⟩

/-- The entry of a call that has updated the store and not yet queued its event. -/
def Call.announcing : Call → Option LogEntry
  | .writing _ e .updated => some e
  | .writing _ e (.observed _) => some e
  | _ => none

/-- The put of a call that is about to read its event back from the store. -/
def Call.reading : Call → Option LogEntry
  | .writing _ e .updated => if e.op = .put then some e else none
  | _ => none

/-- The event that a call has read back, with its entry. -/
def Call.observed : Call → Option (LogEntry × Option Entry)
  | .writing _ e (.observed ev) => some (e, ev)
  | _ => none

namespace Hub

/-! ## Closed channels -/

/-- No `Watch` call sets a timeout. -/
def NoTimeout (_ : Hub) : HubAct → Prop
  | .watch _ timeout => timeout ≤ 0
  | _ => True

theorem closed_of_offered {w w' : Watcher} {e : Entry} (offered : w.offer e = .ok w') :
    w'.timeout = w.timeout ∧ w'.closed = w.closed := by
  unfold Watcher.offer at offered
  split at offered
  · cases offered
    exact ⟨rfl, rfl⟩
  · split at offered
    · cases offered
    · split at offered <;> cases offered <;> exact ⟨rfl, rfl⟩

theorem closed_of_watcher_step {w w' : Watcher} {st : Store} {act : WatcherAct}
    (stepped : w.step st act = some (.ok w')) :
    w'.timeout = w.timeout ∧
      (w'.closed = w.closed ∨ 0 < w.timeout ∧ w'.closed = true) := by
  cases act with
  | replay =>
      simp only [Watcher.step] at stepped
      split at stepped
      · cases stepped
      · cases stepped
      · split at stepped
        · cases stepped
        · split at stepped
          · cases stepped
          · cases stepped
            exact ⟨rfl, Or.inl rfl⟩
  | close =>
      simp only [Watcher.step] at stepped
      split at stepped
      · rename_i timed
        cases stepped
        exact ⟨rfl, Or.inr ⟨timed.1, rfl⟩⟩
      · cases stepped
  | list | stopReplay | receive =>
      simp only [Watcher.step] at stepped
      split at stepped
      · cases stepped
        exact ⟨rfl, Or.inl rfl⟩
      · cases stepped
  | cancel =>
      cases stepped
      exact ⟨rfl, Or.inl rfl⟩

/-- A property of the timeout and the closing of every channel survives a step,
if new channels have it and closing a channel with a timeout keeps it. -/
theorem channels_of_transition {P : Int → Bool → Prop} {h next : Hub} {act : HubAct}
    (all : ∀ w ∈ h.watchers, P w.timeout w.closed) (moved : Transition h act next)
    (opened : ∀ pfx timeout, act = .watch pfx timeout → P timeout false)
    (timed : ∀ timeout closed, P timeout closed → 0 < timeout → P timeout true) :
    ∀ w ∈ next.watchers, P w.timeout w.closed := by
  cases moved with
  | world | ran | loop | fan | nilEvent | closed => exact all
  | sent current slot pending event offered =>
      refine each_set all ?_
      obtain ⟨sameTimeout, sameClosed⟩ := closed_of_offered offered
      rw [sameTimeout, sameClosed]
      exact all _ (List.mem_of_getElem? slot)
  | watch unlocked => exact each_concat all (opened _ _ rfl)
  | attended slot stepped =>
      refine each_set all ?_
      have before := all _ (List.mem_of_getElem? slot)
      obtain ⟨sameTimeout, sameClosed | ⟨hasTimeout, isClosed⟩⟩ := closed_of_watcher_step stepped
      · rw [sameTimeout, sameClosed]
        exact before
      · rw [sameTimeout, isClosed]
        exact timed _ _ before hasTimeout

/-- In every run only channels with a timeout are closed.  In a run whose `Watch`
calls set no timeout all channels are open, and no send panics. -/
theorem channels_open_without_timeout {n : Node} {acts : List HubAct} {h : Hub}
    (reached : execute step (boot n) acts = some h) :
    (∀ w ∈ h.watchers, w.closed = true → 0 < w.timeout) ∧
      (Guarded step NoTimeout (boot n) acts →
        (∀ w ∈ h.watchers, w.closed = false) ∧ h.panicked ≠ some .sendOnClosed) := by
  constructor
  · refine invariant_of_execute step
      (fun h => ∀ w ∈ h.watchers, w.closed = true → 0 < w.timeout) ?_ (by simp [boot]) reached
    intro state act next all stepped
    exact channels_of_transition (P := fun timeout closed => closed = true → 0 < timeout) all
      (transition_of_step stepped).2 (fun _ _ _ isClosed => by cases isClosed)
      (fun _ _ _ hasTimeout _ => hasTimeout)
  · intro untimed
    have kept := invariant_of_guarded step
      (fun h => (∀ w ∈ h.watchers, w.timeout ≤ 0 ∧ w.closed = false) ∧
        h.panicked ≠ some .sendOnClosed) ?_ (by simp [boot]) untimed reached
    · exact ⟨fun w member => (kept.1 w member).2, kept.2⟩
    · intro state act next holds guarded stepped
      obtain ⟨running, moved⟩ := transition_of_step stepped
      refine ⟨?_, ?_⟩
      · refine channels_of_transition (P := fun timeout closed => timeout ≤ 0 ∧ closed = false)
          holds.1 moved ?_ ?_
        · intro pfx timeout watches
          subst watches
          exact ⟨guarded, rfl⟩
        · intro timeout closed untimed hasTimeout
          exact absurd untimed.1 (Int.not_le.mpr hasTimeout)
      · cases moved with
        | world | ran | loop | fan | sent | watch | attended => exact holds.2
        | nilEvent => simp
        | closed member isClosed =>
            rw [(holds.1 _ member).2] at isClosed
            cases isClosed

instance (h : Hub) (act : HubAct) : Decidable (h.NoTimeout act) := by
  cases act <;> unfold NoTimeout <;> infer_instance

/-- A call on a single node with its own batch, while `k` watchers are registered. -/
def wholeCall (i d k : Nat) : List HubAct :=
  (List.replicate 8 (HubAct.world (.proceed i ⟨.ok, []⟩))) ++
    [.fan d] ++ (List.range k).map (HubAct.send d) ++ [.world (.proceed i ⟨.ok, []⟩)]

theorem channels_open_after_put :
    ∃ h, execute step (boot testNode)
        ([.watch "" 0, .watcher 0 .list, .watcher 0 .cancel, .world (.call (.put "a" [1]))] ++
          wholeCall 0 0 1) = some h ∧
      h.watchers.map Watcher.sent = [[⟨"a", [1], 1, false⟩]] ∧
      (∀ w ∈ h.watchers, w.closed = false) ∧ h.panicked ≠ some .sendOnClosed := by
  refine exists_of_tested step
    (fun h => h.watchers.map Watcher.sent = [[⟨"a", [1], 1, false⟩]]) (by decide) ?_
  intro h reached sent
  exact ⟨sent, (channels_open_without_timeout reached).2 (guarded_of_check step (by decide))⟩

/-- The timer of a `Watch` call fires, and the next put of a key panics. -/
theorem put_panics_after_timeout :
    Node.Started testConfig testNode ∧
      ∃ h, execute step (boot testNode)
          ([.watch "" 1000000000, .watcher 0 .list, .watcher 0 .close,
              .world (.call (.put "a" [1]))] ++
            List.replicate 8 (.world (.proceed 0 ⟨.ok, []⟩)) ++ [.fan 0, .send 0 0]) = some h ∧
        h.panicked = some .sendOnClosed :=
  ⟨testNode_started, exists_of_execute_test step _ _ _ (by decide)⟩

/-! ## One event for each applied entry -/

/-- The applied entries are those whose event was queued and those of the calls
that are about to queue it. -/
def Balanced (calls : List Call) (history : List LogEntry)
    (published : List (LogEntry × Option Entry)) : Prop :=
  ∀ e, (published.map Prod.fst).count e + calls.countP (fun c => c.announcing = some e) =
    history.count e

/-- A section of a call moves its entry along: into the history with the update,
and out of the calls with its event. -/
theorem balanced_section {n node : Node} {e e' : LogEntry} {env : WriteEnv}
    {stage stage' : Stage} (req : Request) (ran : Node.Section n e env stage e' stage' node)
    (x : LogEntry) :
    (if (Call.writing req e stage).announcing = some x then 1 else 0) +
        (if stage = .marked then [e] else []).count x =
      (if (Call.writing req e' stage').announcing = some x then 1 else 0) +
        ((stage.event e).map Prod.fst).count x := by
  cases ran with
  | append | journal | journalFailed | commit | timeout | skip | mark | drain | finish
    | observe => simp [Call.announcing, Stage.event]
  | update | enqueue =>
      by_cases same : e = x
      · simp [Call.announcing, Stage.event, same]
      · simp [Call.announcing, Stage.event, same]

theorem balanced_of_transition {h next : Hub} {act : HubAct}
    (balanced : Balanced h.world.calls h.world.history h.published)
    (moved : Transition h act next) :
    Balanced next.world.calls next.world.history next.published := by
  cases moved with
  | world moved noCall =>
      cases moved with
      | refused | called =>
          intro e
          rw [List.countP_append]
          simpa [Call.announcing] using balanced e
      | ran => exact absurd rfl (noCall _ _)
      | copied | built | written | closed | renamed | truncated | gaveUp | electionTimeout =>
          exact balanced
  | ran current served ran =>
      rename_i req e e' stage stage' node
      intro x
      have before := balanced x
      have moved := balanced_section req ran x
      have calls : (h.world.calls.set _ (Call.writing req e' stage')).countP _ + _ = _ + _ :=
        countP_set_balance (fun c => decide (c.announcing = some x)) current
      simp only [decide_eq_true_eq] at calls
      have history : (if stage = .marked then h.world.history ++ [e] else h.world.history) =
          h.world.history ++ if stage = .marked then [e] else [] := by
        split <;> simp
      simp only [history, List.map_append, List.count_append]
      omega
  | loop | fan | nilEvent | sent | closed | watch | attended => exact balanced

/-- Every entry is applied at most once. -/
structure AppliedOnce (lastApplied : Nat) (calls : List Call) (history : List LogEntry) :
    Prop where
  applied : ∀ e ∈ history, e.index ≤ lastApplied
  passed : ∀ c ∈ calls, ∀ e, c.marked = some e →
    e.index ≤ lastApplied ∧ ∀ earlier ∈ history, earlier.index ≠ e.index
  distinct : history.Pairwise fun earlier later => earlier.index ≠ later.index

namespace AppliedOnce

variable {lastApplied : Nat} {calls : List Call} {history : List LogEntry}

theorem concat (once : AppliedOnce lastApplied calls history) {c : Call}
    (unmarked : c.marked = none) : AppliedOnce lastApplied (calls ++ [c]) history :=
  ⟨once.applied, each_concat once.passed (by simp [unmarked]), once.distinct⟩

theorem of_section {n node : Node} {i : Nat} {req : Request} {e e' : LogEntry} {env : WriteEnv}
    {stage stage' : Stage} (once : AppliedOnce n.raft.lastApplied calls history)
    (numbered : World.Numbered n.raft.log calls)
    (current : calls[i]? = some (.writing req e stage))
    (ran : Node.Section n e env stage e' stage' node) :
    AppliedOnce node.raft.lastApplied (calls.set i (.writing req e' stage'))
      (if stage = .marked then history ++ [e] else history) := by
  rcases ran.applied_cases with ⟨rfl, rfl, rfl, ahead, raised⟩ | ⟨unmarked, sameApplied⟩
  · -- the guard lets the entry through: its index is above all that were applied
    rw [if_neg (by simp), raised]
    refine ⟨?_, each_set ?_ ?_, once.distinct⟩
    · intro earlier member
      exact Nat.le_trans (once.applied earlier member) (Nat.le_of_lt ahead)
    · intro c member other isMarked
      obtain ⟨atMost, apart⟩ := once.passed c member other isMarked
      exact ⟨Nat.le_trans atMost (Nat.le_of_lt ahead), apart⟩
    · intro other isMarked
      obtain ⟨_, rfl⟩ := World.marked_writing.mp isMarked
      refine ⟨Nat.le_refl _, ?_⟩
      intro earlier member
      exact Nat.ne_of_lt (Nat.lt_of_le_of_lt (once.applied earlier member) ahead)
  · rw [sameApplied]
    have noNew (other : LogEntry) :
        (Call.writing req e' stage').marked = some other → False := by
      intro isMarked
      exact unmarked (World.marked_writing.mp isMarked).1
    by_cases updates : stage = .marked
    · -- the update: no other call waits with the same number
      subst updates
      have isMarked : (Call.writing req e .marked).marked = some e := rfl
      obtain ⟨atMost, apart⟩ := once.passed _ (List.mem_of_getElem? current) e isMarked
      rw [if_pos rfl]
      refine ⟨each_concat once.applied atMost, ?_, ?_⟩
      · intro c member other otherMarked
        obtain ⟨j, found⟩ := List.mem_iff_getElem?.mp member
        rcases getElem?_set_cases found with ⟨_, rfl⟩ | ⟨different, inSlot⟩
        · exact (noNew other otherMarked).elim
        · obtain ⟨otherAtMost, otherApart⟩ :=
            once.passed c (List.mem_of_getElem? inSlot) other otherMarked
          refine ⟨otherAtMost, each_concat otherApart ?_⟩
          exact numbered.distinct i j _ c (Ne.symm different) current inSlot e other
            (World.numbered_of_marked isMarked) (World.numbered_of_marked otherMarked)
      · refine List.pairwise_append.mpr ⟨once.distinct, List.pairwise_singleton _ _, ?_⟩
        intro earlier member last isLast
        rw [List.mem_singleton.mp isLast]
        exact apart earlier member
    · rw [if_neg updates]
      refine ⟨once.applied, each_set once.passed ?_, once.distinct⟩
      intro other isMarked
      exact (noNew other isMarked).elim

theorem of_transition {h next : Hub} {act : HubAct}
    (once : AppliedOnce h.world.node.raft.lastApplied h.world.calls h.world.history)
    (numbered : World.Numbered h.world.node.raft.log h.world.calls)
    (moved : Transition h act next) :
    AppliedOnce next.world.node.raft.lastApplied next.world.calls next.world.history := by
  cases moved with
  | world moved noCall =>
      cases moved with
      | refused | called => exact once.concat rfl
      | ran => exact absurd rfl (noCall _ _)
      | copied | built | written | closed | renamed | truncated | gaveUp | electionTimeout =>
          exact once
  | ran current served ran => exact once.of_section numbered current ran
  | loop | fan | nilEvent | sent | closed | watch | attended => exact once

theorem nodup (once : AppliedOnce lastApplied calls history) : history.Nodup :=
  once.distinct.imp fun differ same => differ (congrArg LogEntry.index same)

end AppliedOnce

theorem numbered_of_transition {h next : Hub} {act : HubAct}
    (numbered : World.Numbered h.world.node.raft.log h.world.calls)
    (moved : Transition h act next) :
    World.Numbered next.world.node.raft.log next.world.calls := by
  cases moved with
  | world moved noCall => exact numbered.of_transition moved
  | ran current served ran => exact numbered.of_section current ran
  | loop | fan | nilEvent | sent | closed | watch | attended => exact numbered

/-- What was queued since the start is what was taken, then what is still there. -/
def QueuedSince (start : List (Option Entry)) (queue : List (Option Entry))
    (published : List (LogEntry × Option Entry)) : Prop :=
  ∃ taken, start ++ published.map Prod.snd = taken ++ queue

theorem queuedSince_of_transition {start : List (Option Entry)} {h next : Hub} {act : HubAct}
    (queued : QueuedSince start h.world.node.raft.applyQueue h.published)
    (moved : Transition h act next) :
    QueuedSince start next.world.node.raft.applyQueue next.published := by
  have emptied : QueuedSince start [] h.published := ⟨_, (List.append_nil _).symm⟩
  cases moved with
  | world moved noCall =>
      cases moved with
      | ran => exact absurd rfl (noCall _ _)
      | refused | called | copied | built | written | closed | renamed | truncated | gaveUp
        | electionTimeout => exact queued
  | ran current served ran =>
      obtain ⟨taken, same⟩ := queued
      cases ran with
      | enqueue ev =>
          refine ⟨taken, ?_⟩
          simp only [Stage.event, List.map_append, List.map_cons, List.map_nil, Raft.enqueue]
          rw [← List.append_assoc, same, List.append_assoc]
      | drain =>
          simp only [Stage.event, List.append_nil]
          exact emptied
      | append | journal | journalFailed | commit | timeout | skip | mark | update | observe
        | finish =>
          refine ⟨taken, ?_⟩
          simp only [Stage.event, List.append_nil]
          exact same
  | loop => exact emptied
  | fan | nilEvent | sent | closed | watch | attended => exact queued

/-! ## The content of the events -/

/-- No entry reaches the store while a put of its key is about to read its event
back. -/
def Undisturbed (h : Hub) : HubAct → Prop
  | .world (.proceed i _) =>
      ∀ e ∈ (h.world.calls[i]?).bind Call.marked,
        ∀ e' ∈ h.world.calls.filterMap Call.reading, e'.key ≠ e.key
  | _ => True

/-- The store still holds what a put is about to read back, and what was read
back is the event of the entry. -/
structure ReadBack (st : Store) (calls : List Call) : Prop where
  stored : ∀ c ∈ calls, ∀ e, c.reading = some e → st.get e.key = some e.event
  observed : ∀ c ∈ calls, ∀ e ev, c.observed = some (e, ev) → ev = some e.event

namespace ReadBack

variable {st : Store} {calls : List Call}

theorem concat (readBack : ReadBack st calls) {c : Call} (unread : c.reading = none)
    (unobserved : c.observed = none) : ReadBack st (calls ++ [c]) :=
  ⟨each_concat readBack.stored (by simp [unread]),
    each_concat readBack.observed (by simp [unobserved])⟩

theorem set (readBack : ReadBack st calls) {i : Nat} {c : Call} (unread : c.reading = none)
    (unobserved : c.observed = none) : ReadBack st (calls.set i c) :=
  ⟨each_set readBack.stored (by simp [unread]),
    each_set readBack.observed (by simp [unobserved])⟩

/-- The update of a call that disturbs no other. -/
theorem updated (readBack : ReadBack st calls) {i : Nat} (req : Request) {e : LogEntry}
    (undisturbed : ∀ c ∈ calls, ∀ e', c.reading = some e' → e'.key ≠ e.key) :
    ReadBack (st.apply e) (calls.set i (.writing req e .updated)) := by
  refine ⟨each_set ?_ ?_, each_set readBack.observed ?_⟩
  · intro c member other isReading
    rw [Store.get_apply_ne st (undisturbed c member other isReading)]
    exact readBack.stored c member other isReading
  · intro other isReading
    simp only [Call.reading] at isReading
    split at isReading
    · rename_i isPut
      cases isReading
      rw [Store.get_apply_self]
      unfold LogEntry.stored LogEntry.event
      rw [isPut]
    · cases isReading
  · intro other ev isObserved
    cases isObserved

theorem observe {r : Raft} (readBack : ReadBack r.st calls) {i : Nat} {req : Request}
    {e : LogEntry} (current : calls[i]? = some (.writing req e .updated)) :
    ReadBack r.st (calls.set i (.writing req e (.observed (r.eventOf e)))) := by
  refine ⟨each_set readBack.stored ?_, each_set readBack.observed ?_⟩
  · intro other isReading
    cases isReading
  · intro other ev isObserved
    cases isObserved
    unfold Raft.eventOf
    cases kind : e.op with
    | put =>
        refine readBack.stored _ (List.mem_of_getElem? current) e ?_
        simp [Call.reading, kind]
    | del =>
        unfold LogEntry.event
        rw [kind]

end ReadBack

/-- The events that are queued, taken or recorded are those of their entries. -/
structure Faithful (h : Hub) : Prop where
  readBack : ReadBack h.world.node.raft.st h.world.calls
  published : ∀ p ∈ h.published, p.2 = some p.1.event
  queue : ∀ ev ∈ h.world.node.raft.applyQueue, ev ≠ none
  batches : ∀ d ∈ h.drains, (∀ ev ∈ d.events, ev ≠ none) ∧ (d.todo ≠ [] → d.current ≠ none)
  running : h.panicked ≠ some .nilEvent

theorem Faithful.of_section {h : Hub} {i : Nat} {req : Request} {e e' : LogEntry}
    {env : WriteEnv} {stage stage' : Stage} {node : Node} (faithful : h.Faithful)
    (current : h.world.calls[i]? = some (.writing req e stage))
    (ran : Node.Section h.world.node e env stage e' stage' node)
    (undisturbed : h.Undisturbed (.world (.proceed i env))) :
    Faithful
      { h with
        world :=
          { h.world with
            node := node
            calls := h.world.calls.set i (.writing req e' stage')
            history := if stage = .marked then h.world.history ++ [e] else h.world.history }
        drains := h.drains ++ stage.batch i h.world.node.raft.applyQueue
        published := h.published ++ stage.event e } := by
  obtain ⟨readBack, published, queue, batches, running⟩ := faithful
  cases ran with
  | append | journal | journalFailed | commit | timeout | skip | mark | finish =>
      refine ⟨readBack.set rfl rfl, ?_, queue, ?_, running⟩
      · simpa [Stage.event] using published
      · simpa [Stage.batch] using batches
  | update =>
      refine ⟨readBack.updated req ?_, ?_, queue, ?_, running⟩
      · intro c member other isReading
        refine undisturbed e ?_ other (List.mem_filterMap.mpr ⟨c, member, isReading⟩)
        rw [current]
        rfl
      · simpa [Stage.event] using published
      · simpa [Stage.batch] using batches
  | observe =>
      refine ⟨readBack.observe current, ?_, queue, ?_, running⟩
      · simpa [Stage.event] using published
      · simpa [Stage.batch] using batches
  | enqueue ev =>
      have own : ev = some e.event :=
        readBack.observed _ (List.mem_of_getElem? current) e ev rfl
      refine ⟨readBack.set rfl rfl, each_concat published own, each_concat queue ?_, ?_, running⟩
      · rw [own]
        simp
      · simpa [Stage.batch] using batches
  | drain =>
      refine ⟨readBack.set rfl rfl, ?_, ?_, each_concat batches ⟨queue, ?_⟩, running⟩
      · simpa [Stage.event] using published
      · simp [Raft.applyFromQueue]
      · simp

theorem Faithful.of_transition {h next : Hub} {act : HubAct} (faithful : h.Faithful)
    (undisturbed : h.Undisturbed act) (moved : Transition h act next) : next.Faithful := by
  cases moved with
  | world moved noCall =>
      obtain ⟨readBack, published, queue, batches, running⟩ := faithful
      cases moved with
      | refused | called =>
          exact ⟨readBack.concat rfl rfl, published, queue, batches, running⟩
      | ran => exact absurd rfl (noCall _ _)
      | copied | built | written | closed | renamed | truncated | gaveUp | electionTimeout =>
          exact ⟨readBack, published, queue, batches, running⟩
  | ran current served ran => exact faithful.of_section current ran undisturbed
  | loop =>
      refine ⟨faithful.readBack, faithful.published, ?_, ?_, faithful.running⟩
      · simp [Raft.applyFromQueue]
      · exact each_concat faithful.batches ⟨faithful.queue, by simp⟩
  | fan current =>
      obtain ⟨events, _⟩ := faithful.batches _ (List.mem_of_getElem? current)
      refine ⟨faithful.readBack, faithful.published, faithful.queue, ?_, faithful.running⟩
      refine each_set faithful.batches ⟨?_, fun _ => ?_⟩
      · intro ev member
        exact events ev (List.mem_cons_of_mem _ member)
      · exact events _ List.mem_cons_self
  | nilEvent current pending nil =>
      obtain ⟨_, inFanout⟩ := faithful.batches _ (List.mem_of_getElem? current)
      exact absurd nil (inFanout (List.ne_nil_of_mem pending))
  | sent current slot pending event offered =>
      obtain ⟨events, _⟩ := faithful.batches _ (List.mem_of_getElem? current)
      refine ⟨faithful.readBack, faithful.published, faithful.queue, ?_, faithful.running⟩
      refine each_set faithful.batches ⟨events, fun _ => ?_⟩
      rw [event]
      simp
  | closed => exact ⟨faithful.readBack, faithful.published, faithful.queue, faithful.batches, by simp⟩
  | watch | attended =>
      exact ⟨faithful.readBack, faithful.published, faithful.queue, faithful.batches,
        faithful.running⟩

/-- In every interleaving each applied entry is counted once: its event has been
appended to the queue, or its call is about to do so.  If no entry reaches the
store while a put of its key is about to read its event back, the event is the
entry's own, and `fanout` never meets a nil event. -/
theorem events_are_own {n : Node} {acts : List HubAct} {h : Hub}
    (noNil : ∀ ev ∈ n.raft.applyQueue, ev ≠ none)
    (reached : execute step (boot n) acts = some h) :
    ((∀ e ∈ h.world.history, (h.published.map Prod.fst).count e +
          h.world.calls.countP (fun c => c.announcing = some e) = 1) ∧
        (∀ p ∈ h.published, p.1 ∈ h.world.history) ∧
        ∃ taken, n.raft.applyQueue ++ h.published.map Prod.snd =
          taken ++ h.world.node.raft.applyQueue) ∧
      (Guarded step Undisturbed (boot n) acts →
        (∀ p ∈ h.published, p.2 = some p.1.event) ∧ h.panicked ≠ some .nilEvent) := by
  constructor
  · have kept := invariant_of_execute step
      (fun h => World.Numbered h.world.node.raft.log h.world.calls ∧
        AppliedOnce h.world.node.raft.lastApplied h.world.calls h.world.history ∧
        Balanced h.world.calls h.world.history h.published ∧
        QueuedSince n.raft.applyQueue h.world.node.raft.applyQueue h.published)
      ?_ ⟨.boot _, ⟨by simp [boot, World.boot], by simp [boot, World.boot], .nil⟩,
        fun e => rfl, ⟨[], by simp [boot, World.boot]⟩⟩ reached
    · obtain ⟨_, once, balanced, queued⟩ := kept
      refine ⟨?_, ?_, queued⟩
      · intro e member
        rw [balanced e]
        exact List.count_eq_one_of_mem once.nodup member
      · intro p member
        have counted : 0 < (h.published.map Prod.fst).count p.1 :=
          List.count_pos_iff.mpr (List.mem_map_of_mem member)
        have same := balanced p.1
        exact List.count_pos_iff.mp (by omega)
    · rintro state act next ⟨numbered, once, balanced, queued⟩ stepped
      obtain ⟨_, moved⟩ := transition_of_step stepped
      exact ⟨numbered_of_transition numbered moved, once.of_transition numbered moved,
        balanced_of_transition balanced moved, queuedSince_of_transition queued moved⟩
  · intro undisturbed
    have faithful : h.Faithful := by
      refine invariant_of_guarded step Faithful ?_ ?_ undisturbed reached
      · intro state act next faithful guarded stepped
        exact faithful.of_transition guarded (transition_of_step stepped).2
      · exact ⟨⟨by simp [boot, World.boot], by simp [boot, World.boot]⟩, by simp [boot], noNil,
          by simp [boot], by simp [boot]⟩
    exact ⟨faithful.published, faithful.running⟩

instance (h : Hub) (act : HubAct) : Decidable (h.Undisturbed act) := by
  unfold Undisturbed
  split <;> infer_instance

/-- The calls of a put and of a deletion, each run up to the given section. -/
def putAndDelete (deleted : String) (first second again : Nat) : List HubAct :=
  [.watch "" 0, .watcher 0 .list, .world (.call (.put "a" [1])), .world (.call (.delete deleted))] ++
    List.replicate first (.world (.proceed 0 ⟨.ok, []⟩)) ++
    List.replicate second (.world (.proceed 1 ⟨.ok, []⟩)) ++
    List.replicate again (.world (.proceed 0 ⟨.ok, []⟩)) ++ [.fan 0, .send 0 0]

theorem events_are_own_interleaved :
    ∃ h, execute step (boot testNode) (putAndDelete "b" 5 7 3) = some h ∧
      h.published.length = 2 ∧ (∀ p ∈ h.published, p.2 = some p.1.event) ∧
      h.panicked ≠ some .nilEvent := by
  obtain ⟨h, reached, both⟩ := exists_of_execute_test step (boot testNode)
    (putAndDelete "b" 5 7 3) (fun h => h.published.length = 2) (by decide)
  have noNil : ∀ ev ∈ testNode.raft.applyQueue, ev ≠ none := by decide
  exact ⟨h, reached, both, (events_are_own noNil reached).2 (guarded_of_check step (by decide))⟩

/-- A deletion lands between the update of a put and the read of its event: the
event is nil, and `fanout` panics. -/
theorem deleted_put_event_panics :
    Node.Started testConfig testNode ∧
      ∃ h, execute step (boot testNode) (putAndDelete "a" 5 5 3) = some h ∧
        h.published = [(⟨1, 1, .put, "a", [1], 1⟩, none)] ∧ h.panicked = some .nilEvent :=
  ⟨testNode_started, exists_of_execute_test step _ _ _ (by decide)⟩

end Hub

end MiniCloud.Db
