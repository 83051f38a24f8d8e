import MiniCloud.Db.FanoutPanics

/-!
# What a watcher has seen when everything has stopped

An entry on its way to a watcher is in one of four places: with a call between
its update of the store and the queue, in the queue, in a batch, or with the
replay goroutine of the watcher.  Whatever the schedule, nothing leaves these
places without being sent.  So the entries received fold to the content of the
store, provided that the last entry of a key to be sent shows what the store
holds, that is, that no stale entry overtakes a newer one.
-/

namespace MiniCloud.Db

open MiniCloud.Library

/-- What an entry received by a watcher says about its key. -/
def Entry.shown (e : Entry) : Option Entry := if e.deleted then none else some e

/-- A queued event is about its key; a nil event is counted for every key, until
`fanout` panics on it. -/
def About (key : String) : Option Entry → Prop
  | none => True
  | some e => e.key = key

instance (key : String) (ev : Option Entry) : Decidable (About key ev) := by
  cases ev <;> unfold About <;> infer_instance

/-- The content of a key after folding what was sent, the last entry winning. -/
def Watcher.fold (entries : List Entry) : String → Option Entry :=
  replay Entry.key Entry.shown (fun _ => none) entries

/-- The call will queue an event of the key. -/
def Call.Announces (key : String) (c : Call) : Prop := ∃ e ∈ c.announcing, e.key = key

instance (key : String) (c : Call) : Decidable (c.Announces key) :=
  inferInstanceAs (Decidable (∃ e ∈ c.announcing, _))

/-- The batch will offer an event of the key to the watcher. -/
def Drain.Carries (k : Nat) (key : String) (d : Drain) : Prop :=
  (∃ ev ∈ d.events, About key ev) ∨ (k ∈ d.todo ∧ About key d.current)

instance (k : Nat) (key : String) (d : Drain) : Decidable (d.Carries k key) :=
  inferInstanceAs (Decidable (_ ∨ _))

namespace Hub

/-- An event of the key will be offered to the watcher. -/
def Pending (h : Hub) (k : Nat) (key : String) : Prop :=
  (∃ c ∈ h.world.calls, c.Announces key) ∨
    (∃ ev ∈ h.world.node.raft.applyQueue, About key ev) ∨
    ∃ d ∈ h.drains, d.Carries k key

/-- An entry of the key is on its way to the watcher. -/
def OnWay (h : Hub) (k : Nat) (key : String) : Prop :=
  h.Pending k key ∨ ∃ w ∈ h.watchers[k]?, ∃ e ∈ w.rest, e.key = key

instance (h : Hub) (k : Nat) (key : String) : Decidable (h.OnWay k key) :=
  inferInstanceAs (Decidable ((_ ∨ _ ∨ _) ∨ _))

/-- The entry shows what the store holds. -/
def Current (h : Hub) (e : Entry) : Prop := h.world.node.raft.st.get e.key = e.shown

instance (h : Hub) (e : Entry) : Decidable (h.Current e) := inferInstanceAs (Decidable (_ = _))

/-- The entry that the step hands to the watcher, by `fanout` or by its replay. -/
def handed (h : Hub) (k : Nat) : HubAct → Option Entry
  | .send d other => if other = k then (h.drains[d]?).bind Drain.current else none
  | .watcher other .replay =>
      if other = k then (h.watchers[k]?).bind fun w => w.rest.head? else none
  | _ => none

/-- An entry handed to the watcher shows what the store holds, or another entry
of its key is still on its way. -/
def NotOvertaken (k : Nat) (h : Hub) (act : HubAct) : Prop :=
  ∀ e ∈ h.handed k act, ∀ w ∈ h.watchers[k]?, hasPrefix e.key w.pfx = true →
    h.Current e ∨ ∀ next ∈ h.step act, next.OnWay k e.key

instance (k : Nat) (h : Hub) (act : HubAct) : Decidable (h.NotOvertaken k act) :=
  inferInstanceAs (Decidable (∀ e ∈ h.handed k act, _))

/-! ## Nothing is lost on the way -/

/-- An event read back is about the key of its entry. -/
def Keyed (calls : List Call) : Prop :=
  ∀ c ∈ calls, ∀ e ev, c.observed = some (e, ev) → About e.key ev

theorem keyed_of_section {n node : Node} {calls : List Call} {i : Nat} {e e' : LogEntry}
    {env : WriteEnv} {stage stage' : Stage} (keyed : Keyed calls) (req : Request)
    (ran : Node.Section n e env stage e' stage' node) :
    Keyed (calls.set i (.writing req e' stage')) := by
  refine each_set keyed ?_
  cases ran with
  | observe =>
      intro other ev isObserved
      cases isObserved
      unfold Raft.eventOf
      split
      · cases stored : n.raft.st.get e.key with
        | none => trivial
        | some found => exact n.raft.st.entries.keyed e.key found stored
      · exact rfl
  | append | journal | journalFailed | commit | timeout | skip | mark | update | enqueue
    | drain | finish =>
      intro other ev isObserved
      cases isObserved

theorem keyed_of_transition {h next : Hub} {act : HubAct} (keyed : Keyed h.world.calls)
    (moved : Transition h act next) : Keyed next.world.calls := by
  cases moved with
  | world moved noCall =>
      cases moved with
      | refused | called => exact each_concat keyed (by intro e ev isObserved; cases isObserved)
      | ran => exact absurd rfl (noCall _ _)
      | copied | built | written | closed | renamed | truncated | gaveUp | electionTimeout =>
          exact keyed
  | ran current served ran => exact keyed_of_section keyed _ ran
  | loop | fan | nilEvent | sent | closed | watch | attended => exact keyed

/-- A section of a call keeps every event of a key on its way. -/
theorem pending_of_section {h : Hub} {i k : Nat} {key : String} {req : Request}
    {e e' : LogEntry} {env : WriteEnv} {stage stage' : Stage} {node : Node}
    (pending : h.Pending k key) (keyed : Keyed h.world.calls)
    (current : h.world.calls[i]? = some (.writing req e stage))
    (ran : Node.Section h.world.node e env stage e' stage' node) :
    (∃ c ∈ h.world.calls.set i (.writing req e' stage'), c.Announces key) ∨
      (∃ ev ∈ node.raft.applyQueue, About key ev) ∨
      ∃ d ∈ h.drains ++ stage.batch i h.world.node.raft.applyQueue, d.Carries k key := by
  have carriedOn (carried : ∃ d ∈ h.drains, d.Carries k key) :
      ∃ d ∈ h.drains ++ stage.batch i h.world.node.raft.applyQueue, d.Carries k key := by
    obtain ⟨d, member, carries⟩ := carried
    exact ⟨d, List.mem_append_left _ member, carries⟩
  have announcedOn (announced : ∃ c ∈ h.world.calls, c.Announces key)
      (same : (Call.writing req e stage).announcing = (Call.writing req e' stage').announcing) :
      ∃ c ∈ h.world.calls.set i (.writing req e' stage'), c.Announces key := by
    refine some_set current announced ?_
    unfold Call.Announces
    rw [same]
    exact id
  rcases pending with announced | queued | carried
  · cases ran with
    | append | journal | journalFailed | commit | timeout | skip | mark | observe | drain
      | finish => exact Or.inl (announcedOn announced rfl)
    | update =>
        refine Or.inl (some_set current announced ?_)
        rintro ⟨other, nothing, _⟩
        cases nothing
    | enqueue ev =>
        -- the announcing call hands its event to the queue
        obtain ⟨c, member, other, announces, sameKey⟩ := announced
        obtain ⟨j, found⟩ := List.mem_iff_getElem?.mp member
        by_cases same : j = i
        · subst same
          rw [current, Option.some.injEq] at found
          subst found
          cases announces
          have about := keyed _ member e ev rfl
          rw [sameKey] at about
          exact Or.inr (Or.inl ⟨ev, List.mem_append_right _ (List.mem_singleton_self _), about⟩)
        · exact Or.inl ⟨c, mem_set_other same found, other, announces, sameKey⟩
  · obtain ⟨ev, member, about⟩ := queued
    cases ran with
    | drain =>
        refine Or.inr (Or.inr ⟨_, List.mem_append_right _ (List.mem_singleton_self _), ?_⟩)
        exact Or.inl ⟨ev, member, about⟩
    | enqueue => exact Or.inr (Or.inl ⟨ev, List.mem_append_left _ member, about⟩)
    | append | journal | journalFailed | commit | timeout | skip | mark | update | observe
      | finish => exact Or.inr (Or.inl ⟨ev, member, about⟩)
  · exact Or.inr (Or.inr (carriedOn carried))

/-- Every step keeps the events of a key on their way to a registered watcher,
except the one that it hands over. -/
theorem pending_of_transition {h next : Hub} {act : HubAct} {k : Nat} {key : String}
    (pending : h.Pending k key) (keyed : Keyed h.world.calls)
    (registered : k < h.watchers.length) (moved : Transition h act next) :
    next.Pending k key ∨ ∃ e, h.handed k act = some e ∧ e.key = key := by
  cases moved with
  | world moved noCall =>
      left
      cases moved with
      | refused | called =>
          rcases pending with ⟨c, member, announces⟩ | others
          · exact Or.inl ⟨c, List.mem_append_left _ member, announces⟩
          · exact Or.inr others
      | ran => exact absurd rfl (noCall _ _)
      | copied | built | written | closed | renamed | truncated | gaveUp | electionTimeout =>
          exact pending
  | ran current served ran => exact Or.inl (pending_of_section pending keyed current ran)
  | loop =>
      left
      rcases pending with announced | ⟨ev, member, about⟩ | ⟨d, member, carries⟩
      · exact Or.inl announced
      · refine Or.inr (Or.inr ⟨_, List.mem_append_right _ (List.mem_singleton_self _), ?_⟩)
        exact Or.inl ⟨ev, member, about⟩
      · exact Or.inr (Or.inr ⟨d, List.mem_append_left _ member, carries⟩)
  | fan current =>
      left
      rcases pending with announced | queued | carried
      · exact Or.inl announced
      · exact Or.inr (Or.inl queued)
      · refine Or.inr (Or.inr (some_set current carried ?_))
        rintro (⟨ev, member, about⟩ | ⟨inTodo, _⟩)
        · rcases List.mem_cons.mp member with isHead | inRest
          · rw [isHead] at about
            exact Or.inr ⟨List.mem_range.mpr registered, about⟩
          · exact Or.inl ⟨ev, inRest, about⟩
        · cases inTodo
  | sent current slot waiting event offered =>
      rename_i d other drain w w' e
      rcases pending with announced | queued | carried
      · exact Or.inl (Or.inl announced)
      · exact Or.inl (Or.inr (Or.inl queued))
      · by_cases handsOver : other = k ∧ e.key = key
        · obtain ⟨rfl, sameKey⟩ := handsOver
          refine Or.inr ⟨e, ?_, sameKey⟩
          simp [handed, current, event]
        · refine Or.inl (Or.inr (Or.inr (some_set current carried ?_)))
          rintro (inEvents | ⟨inTodo, about⟩)
          · exact Or.inl inEvents
          · refine Or.inr ⟨?_, about⟩
            rw [event] at about
            have different : k ≠ other := fun same => handsOver ⟨same.symm, about⟩
            exact (List.mem_erase_of_ne different).mpr inTodo
  | nilEvent | closed | watch | attended => exact Or.inl pending

/-! ## One watcher -/

/-- Everything sent on the channel or waiting to be replayed is under the
watcher's key range. -/
def UnderPrefix (w : Watcher) : Prop :=
  (∀ e ∈ w.sent, hasPrefix e.key w.pfx = true) ∧ ∀ e ∈ w.rest, hasPrefix e.key w.pfx = true

/-- On a key the watcher has caught up with the store, or nothing was sent on it
before the listing. -/
def SeesKey (st : Store) (w : Watcher) (key : String) : Prop :=
  Watcher.fold w.sent key = st.get key ∨ w.stage = .registered ∧ ∀ e ∈ w.sent, e.key ≠ key

/-- The watcher is connected, and none of its entries was dropped. -/
def Attached (w : Watcher) : Prop := w.cancelled = false ∧ w.dropped = false

/-- On every key of its range the watcher has caught up, or will. -/
structure CaughtUp (h : Hub) (k : Nat) : Prop where
  under : ∀ w, h.watchers[k]? = some w → UnderPrefix w
  sees : ∀ w, h.watchers[k]? = some w → Attached w → ∀ key, hasPrefix key w.pfx = true →
    h.OnWay k key ∨ SeesKey h.world.node.raft.st w key

theorem fold_concat_self (sent : List Entry) (e : Entry) :
    Watcher.fold (sent ++ [e]) e.key = e.shown := by
  unfold Watcher.fold
  rw [replay_concat, Function.update_self]

theorem fold_concat_ne {sent : List Entry} {e : Entry} {key : String} (other : e.key ≠ key) :
    Watcher.fold (sent ++ [e]) key = Watcher.fold sent key := by
  unfold Watcher.fold
  rw [replay_concat, Function.update_of_ne (Ne.symm other)]

theorem fold_of_unsent {sent : List Entry} {key : String} (unsent : ∀ e ∈ sent, e.key ≠ key) :
    Watcher.fold sent key = none := by
  unfold Watcher.fold
  rw [replay_apply, lastOn_eq_none_iff.mpr unsent]

theorem caughtUp_of_slot {h : Hub} {k : Nat} {w : Watcher} (slot : h.watchers[k]? = some w)
    (under : UnderPrefix w)
    (sees : Attached w → ∀ key, hasPrefix key w.pfx = true →
      h.OnWay k key ∨ SeesKey h.world.node.raft.st w key) : h.CaughtUp k := by
  refine ⟨?_, ?_⟩
  · intro v isW
    rw [slot, Option.some.injEq] at isW
    exact isW ▸ under
  · intro v isW
    rw [slot, Option.some.injEq] at isW
    exact isW ▸ sees

/-- Where the last word on a key of the watcher's range is. -/
theorem CaughtUp.places {h : Hub} {k : Nat} {w : Watcher} (caught : h.CaughtUp k)
    (slot : h.watchers[k]? = some w) (attached : Attached w) {key : String}
    (inRange : hasPrefix key w.pfx = true) :
    h.Pending k key ∨ (∃ e ∈ w.rest, e.key = key) ∨ SeesKey h.world.node.raft.st w key := by
  rcases caught.sees w slot attached key inRange with (pending | ⟨v, isW, replayed⟩) | sees
  · exact Or.inl pending
  · rw [slot] at isW
    cases isW
    exact Or.inr (Or.inl replayed)
  · exact Or.inr (Or.inr sees)

/-- A step that leaves the watcher alone. -/
theorem CaughtUp.unchanged {h next : Hub} {k : Nat} (caught : h.CaughtUp k)
    (same : next.watchers[k]? = h.watchers[k]?)
    (store : ∀ key, next.world.node.raft.st.get key = h.world.node.raft.st.get key ∨
      next.Pending k key)
    (pending : k < h.watchers.length → ∀ key, h.Pending k key → next.Pending k key) :
    next.CaughtUp k := by
  refine ⟨?_, ?_⟩
  · intro w slot
    rw [same] at slot
    exact caught.under w slot
  · intro w slot attached key inRange
    rw [same] at slot
    rcases store key with sameStored | announced
    · rcases caught.sees w slot attached key inRange with (isPending | replayed) | sees
      · exact Or.inl (Or.inl (pending (List.getElem?_eq_some_iff.mp slot).1 key isPending))
      · refine Or.inl (Or.inr ?_)
        rw [same]
        exact replayed
      · refine Or.inr ?_
        unfold SeesKey
        rw [sameStored]
        exact sees
    · exact Or.inl (Or.inl announced)

/-- The entry that a step sends to the watcher, when nothing else of its key is on
its way, shows what the store holds. -/
theorem SeesKey.concat {h next : Hub} {k : Nat} {w : Watcher} {e : Entry} {stage : WatchStage}
    (shows : h.Current e ∨ next.OnWay k e.key) {key : String}
    (before : e.key ≠ key → next.OnWay k key ∨ SeesKey h.world.node.raft.st w key)
    (same : stage = .registered ↔ w.stage = .registered) :
    next.OnWay k key ∨
      SeesKey h.world.node.raft.st { w with sent := w.sent ++ [e], stage := stage } key := by
  by_cases onKey : e.key = key
  · subst onKey
    rcases shows with isCurrent | stillComing
    · refine Or.inr (Or.inl ?_)
      change Watcher.fold (w.sent ++ [e]) e.key = _
      rw [fold_concat_self]
      exact isCurrent.symm
    · exact Or.inl stillComing
  · rcases before onKey with onWay | folded | ⟨registered, unsent⟩
    · exact Or.inl onWay
    · refine Or.inr (Or.inl ?_)
      change Watcher.fold (w.sent ++ [e]) key = _
      rw [fold_concat_ne onKey]
      exact folded
    · exact Or.inr (Or.inr ⟨same.mpr registered, each_concat unsent onKey⟩)

/-- What an offer leaves of a watcher. -/
inductive Offered (w : Watcher) (e : Entry) : Watcher → Prop where
  | skipped (outside : hasPrefix e.key w.pfx = false) : Offered w e w
  | dropped : Offered w e { w with dropped := true }
  | sent (inRange : hasPrefix e.key w.pfx = true) :
      Offered w e { w with sent := w.sent ++ [e] }

theorem offered_of_offer {w w' : Watcher} {e : Entry} (offered : w.offer e = .ok w') :
    Offered w e w' := by
  unfold Watcher.offer at offered
  split at offered
  · rename_i outside
    cases offered
    exact .skipped outside
  · rename_i inRange
    split at offered
    · cases offered
    · split at offered
      · cases offered
        exact .dropped
      · cases offered
        exact .sent (by simpa using inRange)

/-- The watcher is renewed by a step that leaves the store alone and keeps every
event on its way that it does not hand over. -/
structure Renewed (h next : Hub) (k : Nat) (w w' : Watcher) (given : Option Entry) : Prop where
  before : h.watchers[k]? = some w
  after : next.watchers[k]? = some w'
  store : next.world.node.raft.st = h.world.node.raft.st
  pending : ∀ key, h.Pending k key → next.Pending k key ∨ ∃ e, given = some e ∧ e.key = key
  /-- The entry handed over shows the store, or another one of its key follows. -/
  shows : ∀ e, given = some e → hasPrefix e.key w.pfx = true →
    h.Current e ∨ next.OnWay k e.key

namespace CaughtUp

variable {h next : Hub} {k : Nat} {w w' : Watcher}

/-- An event is offered to the watcher. -/
theorem offered {e : Entry} (caught : h.CaughtUp k) (renewed : Renewed h next k w w' (some e))
    (offered : Offered w e w') : next.CaughtUp k := by
  obtain ⟨before, after, store, pending, shows⟩ := renewed
  have sameRest : w'.rest = w.rest := by cases offered <;> rfl
  -- on the other keys nothing has happened to the watcher
  have elsewhere (attached : Attached w) {key : String} (inRange : hasPrefix key w.pfx = true)
      (other : e.key ≠ key) : next.OnWay k key ∨ SeesKey h.world.node.raft.st w key := by
    rcases caught.places before attached inRange with isPending | replayed | sees
    · rcases pending key isPending with kept | ⟨given, isGiven, onKey⟩
      · exact Or.inl (Or.inl kept)
      · cases isGiven
        exact absurd onKey other
    · exact Or.inl (Or.inr ⟨w', after, by rwa [sameRest]⟩)
    · exact Or.inr sees
  have under := caught.under w before
  cases offered with
  | skipped outside =>
      refine caughtUp_of_slot after under ?_
      intro attached key inRange
      rw [store]
      refine elsewhere attached inRange ?_
      intro onKey
      rw [onKey, inRange] at outside
      cases outside
  | dropped => exact caughtUp_of_slot after under fun attached => by cases attached.2
  | sent keyInRange =>
      refine caughtUp_of_slot after ⟨each_concat under.1 keyInRange, under.2⟩ ?_
      intro attached key inRange
      rw [store]
      exact SeesKey.concat (shows e rfl keyInRange) (elsewhere attached inRange) Iff.rfl

/-- The listing of `Watch` catches every key on which nothing was sent so far. -/
theorem listed (caught : h.CaughtUp k)
    (renewed : Renewed h next k w
      { w with stage := .replaying (h.world.node.raft.st.entries.list w.pfx) } none)
    (registered : w.stage = .registered) : next.CaughtUp k := by
  obtain ⟨before, after, store, pending, _⟩ := renewed
  have under := caught.under w before
  refine caughtUp_of_slot after
    ⟨under.1, fun e isListed => (EntryMap.mem_list_iff.mp isListed).1⟩ ?_
  intro attached key inRange
  rcases caught.places before attached inRange with
    isPending | ⟨e, inRest, _⟩ | folded | ⟨_, unsent⟩
  · rcases pending key isPending with kept | ⟨e, nothing, _⟩
    · exact Or.inl (Or.inl kept)
    · cases nothing
  · unfold Watcher.rest at inRest
    rw [registered] at inRest
    cases inRest
  · refine Or.inr (Or.inl ?_)
    rw [store]
    exact folded
  · cases stored : h.world.node.raft.st.get key with
    | some e =>
        have onKey : e.key = key := h.world.node.raft.st.entries.keyed key e stored
        have isListed : e ∈ h.world.node.raft.st.entries.list w.pfx := by
          refine EntryMap.mem_list_iff.mpr ?_
          rw [onKey]
          exact ⟨inRange, stored⟩
        exact Or.inl (Or.inr ⟨_, after, e, isListed, onKey⟩)
    | none =>
        refine Or.inr (Or.inl ?_)
        rw [store, stored]
        exact fold_of_unsent unsent

/-- The replay goroutine sends its next entry. -/
theorem replayed {e : Entry} {rest : List Entry} (caught : h.CaughtUp k)
    (renewed : Renewed h next k w
      { w with sent := w.sent ++ [e], stage := .replaying rest } (some e))
    (samePending : ∀ key, h.Pending k key → next.Pending k key)
    (replaying : w.stage = .replaying (e :: rest)) : next.CaughtUp k := by
  obtain ⟨before, after, store, _, shows⟩ := renewed
  have under := caught.under w before
  have oldRest : w.rest = e :: rest := by
    unfold Watcher.rest
    rw [replaying]
  rw [UnderPrefix, oldRest] at under
  have headInRange := under.2 e List.mem_cons_self
  refine caughtUp_of_slot after ⟨each_concat under.1 headInRange, ?_⟩ ?_
  · intro other member
    exact under.2 other (List.mem_cons_of_mem _ member)
  · intro attached key inRange
    rw [store]
    refine SeesKey.concat (shows e rfl headInRange) ?_ (by simp [replaying])
    intro other
    rcases caught.places before attached inRange with isPending | ⟨e', inRest, onKey⟩ | sees
    · exact Or.inl (Or.inl (samePending key isPending))
    · rw [oldRest] at inRest
      rcases List.mem_cons.mp inRest with isHead | later
      · rw [isHead] at onKey
        exact absurd onKey other
      · exact Or.inl (Or.inr ⟨_, after, e', later, onKey⟩)
    · exact Or.inr sees

/-- A step that leaves channel, range and replay of the watcher as they are. -/
theorem kept (caught : h.CaughtUp k) (renewed : Renewed h next k w w' none)
    (samePfx : w'.pfx = w.pfx) (sameSent : w'.sent = w.sent) (sameStage : w'.stage = w.stage)
    (wasAttached : Attached w' → Attached w) : next.CaughtUp k := by
  obtain ⟨before, after, store, pending, _⟩ := renewed
  have under := caught.under w before
  have sameRest : w'.rest = w.rest := by
    unfold Watcher.rest
    rw [sameStage]
  refine caughtUp_of_slot after ?_ ?_
  · unfold UnderPrefix
    rw [sameSent, samePfx, sameRest]
    exact under
  · intro attached key inRange
    rw [samePfx] at inRange
    rcases caught.places before (wasAttached attached) inRange with isPending | inRest | sees
    · rcases pending key isPending with kept | ⟨e, nothing, _⟩
      · exact Or.inl (Or.inl kept)
      · cases nothing
    · exact Or.inl (Or.inr ⟨w', after, by rwa [sameRest]⟩)
    · refine Or.inr ?_
      unfold SeesKey
      rw [store, sameSent, sameStage]
      exact sees

/-- A step of the watcher itself. -/
theorem attended {act : WatcherAct} (caught : h.CaughtUp k) (slot : h.watchers[k]? = some w)
    (stepped : w.step h.world.node.raft.st act = some (.ok w'))
    (shows : ∀ e ∈ h.handed k (.watcher k act), hasPrefix e.key w.pfx = true →
      h.Current e ∨
        OnWay { h with watchers := h.watchers.set k w' } k e.key) :
    CaughtUp { h with watchers := h.watchers.set k w' } k := by
  have inside := (List.getElem?_eq_some_iff.mp slot).1
  have renewed (given : Option Entry)
      (shows : ∀ e, given = some e → hasPrefix e.key w.pfx = true →
        h.Current e ∨ OnWay { h with watchers := h.watchers.set k w' } k e.key) :
      Renewed h { h with watchers := h.watchers.set k w' } k w w' given :=
    ⟨slot, List.getElem?_set_self inside, rfl, fun _ => Or.inl, shows⟩
  have silent := renewed none fun _ nothing => by cases nothing
  cases act with
  | list =>
      simp only [Watcher.step] at stepped
      split at stepped
      · rename_i registered
        cases stepped
        exact caught.listed silent registered
      · cases stepped
  | replay =>
      simp only [Watcher.step] at stepped
      split at stepped
      · cases stepped
      · cases stepped
      · rename_i e rest replaying
        split at stepped
        · cases stepped
        · split at stepped
          · cases stepped
          · cases stepped
            have hands : h.handed k (.watcher k .replay) = some e := by
              simp [handed, slot, Watcher.rest, replaying]
            refine caught.replayed (renewed (some e) ?_) (fun _ => id) replaying
            intro given isGiven
            cases isGiven
            exact shows e hands
  | stopReplay =>
      simp only [Watcher.step] at stepped
      split at stepped
      · rename_i stops
        cases stepped
        refine caughtUp_of_slot silent.after
          ⟨(caught.under w slot).1, List.forall_mem_nil _⟩ ?_
        intro attached
        have connected : w.cancelled = false := attached.1
        rw [connected] at stops
        cases stops.1
      · cases stepped
  | cancel =>
      cases stepped
      exact caught.kept silent rfl rfl rfl fun attached => by cases attached.1
  | close | receive =>
      simp only [Watcher.step] at stepped
      split at stepped
      · cases stepped
        exact caught.kept silent rfl rfl rfl id
      · cases stepped

/-- A `Watch` call registers a channel: only the new watcher can be in an empty slot,
and nothing was sent to it. -/
theorem registered {pfx : String} {timeout : Int} (caught : h.CaughtUp k)
    (watchers : next.watchers = h.watchers ++ [.register pfx timeout])
    (sameStore : next.world.node.raft.st = h.world.node.raft.st)
    (pending : ∀ key, h.Pending k key → next.Pending k key) : next.CaughtUp k := by
  by_cases inside : k < h.watchers.length
  · refine caught.unchanged ?_ (fun key => Or.inl (by rw [sameStore])) fun _ => pending
    rw [watchers]
    exact List.getElem?_append_left inside
  · have isNew {w : Watcher} (slot : next.watchers[k]? = some w) : w = .register pfx timeout := by
      rw [watchers] at slot
      rcases getElem?_concat_cases slot with ⟨_, same⟩ | ⟨_, old⟩
      · exact same
      · exact absurd (List.getElem?_eq_some_iff.mp old).1 inside
    refine ⟨?_, ?_⟩
    · intro w slot
      rw [isNew slot]
      exact ⟨List.forall_mem_nil _, List.forall_mem_nil _⟩
    · intro w slot attached key inRange
      rw [isNew slot]
      exact Or.inr (Or.inr ⟨rfl, List.forall_mem_nil _⟩)

/-- A section of a call: the update announces its key, and nothing else changes
the store. -/
theorem of_section {i : Nat} {req : Request} {e e' : LogEntry} {env : WriteEnv}
    {stage stage' : Stage} {node : Node} (caught : h.CaughtUp k)
    (current : h.world.calls[i]? = some (.writing req e stage))
    (ran : Node.Section h.world.node e env stage e' stage' node)
    (sameWatchers : next.watchers = h.watchers) (sameNode : next.world.node = node)
    (sameCalls : next.world.calls = h.world.calls.set i (.writing req e' stage'))
    (pending : ∀ key, h.Pending k key → next.Pending k key) : next.CaughtUp k := by
  refine caught.unchanged (by rw [sameWatchers]) ?_ (fun _ => pending)
  intro key
  rw [sameNode]
  rcases ran.store_cases with ⟨_, rfl, rfl, applied⟩ | ⟨_, sameStore, _⟩
  · by_cases onKey : e'.key = key
    · refine Or.inr (Or.inl ⟨.writing req e' .updated, ?_, e', rfl, onKey⟩)
      rw [sameCalls]
      exact mem_set_self current
    · rw [applied]
      exact Or.inl (Store.get_apply_ne _ (Ne.symm onKey))
  · rw [sameStore]
    exact Or.inl rfl

theorem of_transition {act : HubAct} (caught : h.CaughtUp k) (keyed : Keyed h.world.calls)
    (notOvertaken : h.NotOvertaken k act) (stepped : h.step act = some next) :
    next.CaughtUp k := by
  obtain ⟨_, moved⟩ := transition_of_step stepped
  -- a step that hands nothing to the watcher keeps every event on its way
  have silent (nothing : h.handed k act = none) (inside : k < h.watchers.length) (key : String)
      (pending : h.Pending k key) : next.Pending k key := by
    rcases pending_of_transition pending keyed inside moved with kept | ⟨e, hands, _⟩
    · exact kept
    · rw [nothing] at hands
      cases hands
  cases moved with
  | world moved noCall =>
      refine caught.unchanged rfl (fun key => Or.inl ?_) (silent rfl)
      cases moved with
      | ran => exact absurd rfl (noCall _ _)
      | refused | called | copied | built | written | closed | renamed | truncated | gaveUp
        | electionTimeout => rfl
  | ran current served ran =>
      refine caught.of_section current ran rfl rfl rfl ?_
      exact fun key pending => pending_of_section pending keyed current ran
  | loop => exact caught.unchanged rfl (fun key => Or.inl rfl) (silent rfl)
  | fan current => exact caught.unchanged rfl (fun key => Or.inl rfl) (silent rfl)
  | nilEvent | closed => exact caught.unchanged rfl (fun key => Or.inl rfl) fun _ _ => id
  | watch unlocked =>
      exact caught.registered rfl rfl fun _ => id
  | sent current slot waiting event offered =>
      rename_i d other drain w w' e
      by_cases same : other = k
      · subst same
        have hands : h.handed other (.send d other) = some e := by
          simp [handed, current, event]
        have inside := (List.getElem?_eq_some_iff.mp slot).1
        refine caught.offered ⟨slot, List.getElem?_set_self inside, rfl, ?_, ?_⟩
          (offered_of_offer offered)
        · intro key pending
          rw [← hands]
          exact pending_of_transition pending keyed inside
            (.sent current slot waiting event offered)
        · intro given isGiven inRange
          cases isGiven
          exact (notOvertaken e hands w slot inRange).imp_right fun onWay => onWay _ stepped
      · refine caught.unchanged ?_ (fun key => Or.inl rfl) (silent (if_neg same))
        exact List.getElem?_set_ne same
  | attended slot moved =>
      rename_i other act w w'
      by_cases same : other = k
      · subst same
        refine caught.attended slot moved ?_
        intro e hands inRange
        exact (notOvertaken e hands w slot inRange).imp_right fun onWay => onWay _ stepped
      · refine caught.unchanged ?_ (fun key => Or.inl rfl) fun _ _ => id
        exact List.getElem?_set_ne same

end CaughtUp

/-- The call has been answered. -/
def Answered : Call → Prop
  | .mismatch _ => True
  | .writing _ _ (.returned _) => True
  | .writing _ _ (.failed _) => True
  | .writing _ _ _ => False

/-- Nothing is going on: every call is answered, no event is queued or in a batch,
and the watcher has replayed its listing and received everything. -/
structure Stopped (h : Hub) (w : Watcher) : Prop where
  calls : ∀ c ∈ h.world.calls, Answered c
  queue : h.world.node.raft.applyQueue = []
  drains : ∀ d ∈ h.drains, d.Finished
  replay : w.stage = .replaying []
  received : w.received = w.sent.length

theorem not_announces_of_answered {c : Call} (answered : Answered c) (key : String) :
    ¬ c.Announces key := by
  rintro ⟨e, announces, _⟩
  cases c with
  | mismatch => cases announces
  | writing req entry stage =>
      cases stage with
      | updated | observed => exact answered
      | built | appended | journaled | committed | marked | applied | drained | returned
        | failed => cases announces

theorem not_onWay_of_stopped {h : Hub} {k : Nat} {w : Watcher} (stopped : h.Stopped w)
    (slot : h.watchers[k]? = some w) (key : String) : ¬ h.OnWay k key := by
  rintro ((⟨c, member, announces⟩ | ⟨ev, queued, _⟩ | ⟨d, member, carries⟩) | ⟨v, isW, replayed⟩)
  · exact not_announces_of_answered (stopped.calls c member) key announces
  · rw [stopped.queue] at queued
    cases queued
  · obtain ⟨noEvents, noTodo⟩ := stopped.drains d member
    rcases carries with ⟨ev, inEvents, _⟩ | ⟨inTodo, _⟩
    · rw [noEvents] at inEvents
      cases inEvents
    · rw [noTodo] at inTodo
      cases inTodo
  · rw [slot] at isW
    cases isW
    obtain ⟨e, inRest, _⟩ := replayed
    unfold Watcher.rest at inRest
    rw [stopped.replay] at inRest
    cases inRest

/-- Along every interleaving in which no stale entry overtakes a newer one on its
way to the watcher, the entries that it has received when everything has stopped
fold to the entries of the store under its key range. -/
theorem watcher_converges {n : Node} {acts : List HubAct} {h : Hub} {k : Nat} {w : Watcher}
    (notOvertaken : Guarded step (NotOvertaken k) (boot n) acts)
    (reached : execute step (boot n) acts = some h) (slot : h.watchers[k]? = some w)
    (attached : Attached w) (stopped : h.Stopped w) :
    ∀ key, Watcher.fold (w.sent.take w.received) key =
      if hasPrefix key w.pfx then h.world.node.raft.st.get key else none := by
  have kept := invariant_of_guarded step (fun h => Keyed h.world.calls ∧ h.CaughtUp k) ?_ ?_
    notOvertaken reached
  · obtain ⟨_, caught⟩ := kept
    intro key
    rw [stopped.received, List.take_length]
    split
    · rename_i inRange
      rcases caught.sees w slot attached key inRange with onWay | folded | ⟨registered, _⟩
      · exact absurd onWay (not_onWay_of_stopped stopped slot key)
      · exact folded
      · rw [stopped.replay] at registered
        cases registered
    · rename_i outside
      refine fold_of_unsent ?_
      intro e member onKey
      refine outside ?_
      rw [← onKey]
      exact (caught.under w slot).1 e member
  · rintro state act next ⟨keyed, caught⟩ guarded stepped
    exact ⟨keyed_of_transition keyed (transition_of_step stepped).2,
      caught.of_transition keyed guarded stepped⟩
  · refine ⟨List.forall_mem_nil _, ⟨?_, ?_⟩⟩
    · intro w slot
      cases slot
    · intro w slot
      cases slot

instance (c : Call) : Decidable (Answered c) :=
  match c with
  | .mismatch _ | .writing _ _ (.returned _) | .writing _ _ (.failed _) =>
      inferInstanceAs (Decidable True)
  | .writing _ _ .built | .writing _ _ .appended | .writing _ _ .journaled
  | .writing _ _ .committed | .writing _ _ .marked | .writing _ _ .updated
  | .writing _ _ (.observed _) | .writing _ _ .applied | .writing _ _ .drained =>
      inferInstanceAs (Decidable False)

instance (w : Watcher) : Decidable (Attached w) := inferInstanceAs (Decidable (_ ∧ _))

instance (h : Hub) (w : Watcher) : Decidable (h.Stopped w) :=
  decidable_of_iff ((∀ c ∈ h.world.calls, Answered c) ∧ h.world.node.raft.applyQueue = [] ∧
      (∀ d ∈ h.drains, d.Finished) ∧ w.stage = .replaying [] ∧ w.received = w.sent.length)
    ⟨fun ⟨calls, queue, drains, replay, received⟩ => ⟨calls, queue, drains, replay, received⟩,
      fun stopped =>
        ⟨stopped.calls, stopped.queue, stopped.drains, stopped.replay, stopped.received⟩⟩

/-- Two puts of one key with their batches, and a `Watch` between them.  Its replay
runs before the second put, or after it. -/
def putsAroundWatch (replayFirst : Bool) : List HubAct :=
  [.world (.call (.put "a" [1]))] ++ wholeCall 0 0 0 ++
    [.watch "" 0, .watcher 0 .list] ++
    (if replayFirst then [.watcher 0 .replay] else []) ++
    [.world (.call (.put "a" [2]))] ++ wholeCall 1 1 1 ++
    (if replayFirst then [] else [.watcher 0 .replay]) ++
    [.watcher 0 .receive, .watcher 0 .receive]

theorem watcher_converges_after_replay :
    ∃ h, execute step (boot testNode) (putsAroundWatch true) = some h ∧
      ∃ w ∈ h.watchers[0]?, w.sent.length = 2 ∧
        ∀ key, Watcher.fold (w.sent.take w.received) key =
          if hasPrefix key w.pfx then h.world.node.raft.st.get key else none := by
  obtain ⟨h, reached, w, slot, both, attached, stopped⟩ := exists_of_execute_test step
    (boot testNode) (putsAroundWatch true)
    (fun h => ∃ w ∈ h.watchers[0]?, w.sent.length = 2 ∧ Attached w ∧ h.Stopped w) (by decide)
  have notOvertaken : Guarded step (NotOvertaken 0) (boot testNode) (putsAroundWatch true) :=
    guarded_of_check step (by decide)
  exact ⟨h, reached, w, slot, both,
    watcher_converges notOvertaken reached slot attached stopped⟩

/-- The replay goroutine sends the listed entry after `fanout` has sent a newer
one: the watcher is left with the old content. -/
theorem replay_overtaken_by_put :
    Node.Started testConfig testNode ∧
      ∃ h, execute step (boot testNode) (putsAroundWatch false) = some h ∧
        ∃ w ∈ h.watchers[0]?, w.timeout = 0 ∧ Attached w ∧ h.Stopped w ∧
          Watcher.fold (w.sent.take w.received) "a" = some ⟨"a", [1], 1, false⟩ ∧
          h.world.node.raft.st.get "a" = some ⟨"a", [2], 2, false⟩ :=
  ⟨testNode_started, exists_of_execute_test step _ _ _ (by decide)⟩

end Hub

end MiniCloud.Db
