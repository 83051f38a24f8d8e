import MiniCloud.Db.SnapshotRecovery
import MiniCloud.Db.Concurrent

/-!
# Snapshots taken while clients write

`snapshot` copies the store first and truncates the journal last, and holds no lock
in between.  An entry that is journaled in that time, or that was journaled before
but reaches the store after the copy, is neither in the snapshot nor in the
journal once the journal is truncated.  When there is no such entry at the
truncation, the directory keeps every acknowledged write at every moment of every
schedule.

The journal is written outside the lock that numbers the entries, so that an entry may
stand in the file behind one with a greater index and overwrite it.  A write keeps its
effect, up to entries with a greater index, when the entries of its key are written and
reach the store in the order of their indices.
-/

namespace MiniCloud.Db

open MiniCloud.Library

/-- The map in `snap.json`, empty without one. -/
def Disk.snapView (disk : Disk) : String → Option (Bytes × Nat) :=
  match disk.snap with
  | none => fun _ => none
  | some snap => snap.state.view

/-- The entries that the journal holds. -/
def Disk.journaled (disk : Disk) : List LogEntry := (readJournal disk.journal).entries

/-- The data directory read as the snapshot followed by the journal entries. -/
def Disk.content (disk : Disk) : String → Option (Bytes × Nat) :=
  replay LogEntry.key LogEntry.effect disk.snapView disk.journaled

theorem readJournal_concat_whole {journal : List JournalLine}
    (decodable : (readJournal journal).failure = none) (e : LogEntry) :
    readJournal (journal ++ [.whole e]) = ⟨(readJournal journal).entries ++ [e], none⟩ := by
  induction journal with
  | nil => rfl
  | cons line rest ih =>
      cases line with
      | whole first =>
          have later := ih decodable
          simp only [List.cons_append, readJournal, later]
      | torn first =>
          cases rest with
          | nil => cases decodable
          | cons => cases decodable

/-- The entry of a call whose journal line was written and which has not failed. -/
def Call.journaled : Call → Option LogEntry
  | .mismatch _ => none
  | .writing _ e stage =>
      if stage = .built ∨ stage = .appended ∨ stage.phase = .failed then none else some e

theorem journaled_writing {req : Request} {e found : LogEntry} {stage : Stage} :
    (Call.writing req e stage).journaled = some found ↔
      (stage ≠ .built ∧ stage ≠ .appended ∧ stage.phase ≠ .failed) ∧ e = found := by
  simp [Call.journaled]

theorem journaled_of_succeeded {c : Call} {e : LogEntry} (succeeded : c.succeeded = some e) :
    c.journaled = some e := by
  unfold Call.succeeded at succeeded
  split at succeeded
  · cases succeeded
    rfl
  · cases succeeded

/-- A call in the stored phase has written its journal line. -/
theorem journaled_of_stored {c : Call} {e : LogEntry} (stored : c.inPhase .stored = some e) :
    c.journaled = some e := by
  cases c with
  | mismatch => cases stored
  | writing req found stage =>
      obtain ⟨phase, rfl⟩ := inPhase_writing.mp stored
      refine journaled_writing.mpr ⟨⟨?_, ?_, ?_⟩, rfl⟩
      · rintro rfl
        cases phase
      · rintro rfl
        cases phase
      · rw [phase]
        decide

/-- The entry of a call at a stage. -/
def Call.entryAt (stage : Stage) : Call → Option LogEntry
  | .mismatch _ => none
  | .writing _ e s => if s = stage then some e else none

/-- The entry comes after those of its key in a list. -/
def LogEntry.Follows (e : LogEntry) (entries : List LogEntry) : Prop :=
  ∀ x ∈ entries, x.key = e.key → x.index < e.index

instance (e : LogEntry) (entries : List LogEntry) : Decidable (e.Follows entries) :=
  inferInstanceAs (Decidable (∀ x ∈ entries, x.key = e.key → x.index < e.index))

namespace World

/-- The call, if it is about to write its journal line or to update the store, comes after
the entries of its key that have been written or have reached the store. -/
def InIndexOrder (w : World) (i : Nat) : Prop :=
  (∀ e ∈ (w.calls[i]?).bind (Call.entryAt .appended),
      e.Follows (w.saved ++ w.node.disk.journaled)) ∧
    ∀ e ∈ (w.calls[i]?).bind (Call.entryAt .marked), e.Follows w.history

instance (w : World) (i : Nat) : Decidable (w.InIndexOrder i) :=
  inferInstanceAs (Decidable (_ ∧ _))

/-- No journal write is torn, the entries of a key are written to the journal and reach the
store in the order of their indices, and the journal is truncated only when every entry
that was written to it had reached the store before the copy. -/
def Covered (w : World) : Act → Prop
  | .proceed i env => env.write ≠ .torn ∧ w.InIndexOrder i
  | .snap ok =>
      match w.snapper with
      | .renamed => ok = true → ∀ e ∈ w.calls.filterMap Call.journaled, e ∈ w.seen
      | _ => True
  | .call _ => True
  | .electionTimeout => True

instance (w : World) (act : Act) : Decidable (w.Covered act) :=
  match act with
  | .proceed i env => inferInstanceAs (Decidable (env.write ≠ .torn ∧ w.InIndexOrder i))
  | .snap ok =>
      match isStage : w.snapper with
      | .renamed =>
          decidable_of_iff (ok = true → ∀ e ∈ w.calls.filterMap Call.journaled, e ∈ w.seen)
            (by simp only [Covered, isStage])
      | .idle | .copied _ | .built _ | .written | .closed =>
          isTrue (by simp only [Covered, isStage])
  | .call _ | .electionTimeout => inferInstanceAs (Decidable True)

/-- What the snapshotter carries from the copy to the rename. -/
def Carries (content : String → Option (Bytes × Nat)) (tmp : Option RaftSnapshot)
    (seen saved : List LogEntry) : SnapStage → Prop
  | .idle => True
  | .copied st => saved <+: seen ∧ st.entries.view = content
  | .built snap => saved <+: seen ∧ snap.state.view = content
  | .written => saved <+: seen ∧ ∃ snap, tmp = some snap ∧ snap.state.view = content
  | .closed => saved <+: seen ∧ ∃ snap, tmp = some snap ∧ snap.state.view = content
  | .renamed => saved = seen

/-- The snapshot holds the saved part of the history, the store holds all of it,
and every written entry is in the one or in the journal. -/
structure Durably (base : String → Option (Bytes × Nat)) (st : Store) (disk : Disk)
    (calls : List Call) (snapper : SnapStage) (history seen saved : List LogEntry) : Prop where
  store : st.entries.view = replay LogEntry.key LogEntry.effect base history
  decodable : (readJournal disk.journal).failure = none
  written : ∀ c ∈ calls, ∀ e, c.journaled = some e → e ∈ saved ++ disk.journaled
  savedPart : saved <+: history
  seenPart : seen <+: history
  carries : Carries (replay LogEntry.key LogEntry.effect base seen) disk.snapTmp seen saved snapper
  snapshot : ∃ start, disk.snapView = replay LogEntry.key LogEntry.effect start saved

theorem journaled_of_section {n node : Node} {req : Request} {e e' found : LogEntry}
    {env : WriteEnv} {stage stage' : Stage} (ran : Node.Section n e env stage e' stage' node)
    (notWritten : stage' ≠ .journaled)
    (journaled : (Call.writing req e' stage').journaled = some found) :
    (Call.writing req e stage).journaled = some found := by
  cases ran with
  | journal => exact absurd rfl notWritten
  | append | journalFailed | timeout => simp [Call.journaled, Stage.phase] at journaled
  | commit | skip | mark | update | observe | enqueue | drain | finish =>
      simpa [Call.journaled, Stage.phase] using journaled

/-- A journal write that is not torn leaves a readable journal with all entries
that were in it. -/
theorem journaled_append {disk : Disk} (decodable : (readJournal disk.journal).failure = none)
    {e : LogEntry} {lines : List JournalLine} (left : lines = [] ∨ lines = [.whole e]) :
    (readJournal (disk.journal ++ lines)).failure = none ∧
      disk.journaled ⊆ (readJournal (disk.journal ++ lines)).entries := by
  rcases left with rfl | rfl
  · rw [List.append_nil]
    exact ⟨decodable, List.Subset.refl _⟩
  · rw [readJournal_concat_whole decodable]
    exact ⟨rfl, List.subset_append_left _ _⟩

namespace Durably

variable {base : String → Option (Bytes × Nat)} {st : Store} {disk : Disk} {calls : List Call}
  {snapper : SnapStage} {history seen saved : List LogEntry}

theorem concat (durably : Durably base st disk calls snapper history seen saved) {c : Call}
    (unwritten : c.journaled = none) :
    Durably base st disk (calls ++ [c]) snapper history seen saved :=
  { durably with written := each_concat durably.written (by simp [unwritten]) }

/-- The store may take another entry. -/
theorem stored (durably : Durably base st disk calls snapper history seen saved)
    (e : LogEntry) : Durably base (st.apply e) disk calls snapper (history ++ [e]) seen saved :=
  { durably with
    store := by rw [Store.view_apply, replay_concat, durably.store]
    savedPart := durably.savedPart.trans (List.prefix_append _ _)
    seenPart := durably.seenPart.trans (List.prefix_append _ _) }

/-- The journal may take more lines, as long as it stays readable. -/
theorem extended (durably : Durably base st disk calls snapper history seen saved)
    {lines : List JournalLine} {calls' : List Call}
    (decodable : (readJournal (disk.journal ++ lines)).failure = none)
    (written : ∀ c ∈ calls', ∀ e, c.journaled = some e →
      e ∈ saved ++ (readJournal (disk.journal ++ lines)).entries) :
    Durably base st { disk with journal := disk.journal ++ lines } calls' snapper history seen
      saved :=
  { durably with decodable := decodable, written := written }

theorem of_section {n node : Node} {i : Nat} {req : Request} {e e' : LogEntry} {env : WriteEnv}
    {stage stage' : Stage}
    (durably : Durably base n.raft.st n.disk calls snapper history seen saved)
    (whole : env.write ≠ .torn) (current : calls[i]? = some (.writing req e stage))
    (ran : Node.Section n e env stage e' stage' node) :
    Durably base node.raft.st node.disk (calls.set i (.writing req e' stage')) snapper
      (if stage = .marked then history ++ [e] else history) seen saved := by
  have stillSaved {lines : List JournalLine} (left : lines = [] ∨ lines = [.whole e])
      {c : Call} (member : c ∈ calls) {found : LogEntry} (journaled : c.journaled = some found) :
      found ∈ saved ++ (readJournal (n.disk.journal ++ lines)).entries := by
    rcases List.mem_append.mp (durably.written c member found journaled) with inSaved | inJournal
    · exact List.mem_append_left _ inSaved
    · exact List.mem_append_right _ ((journaled_append durably.decodable left).2 inJournal)
  have onDisk : Durably base n.raft.st node.disk (calls.set i (.writing req e' stage')) snapper
      history seen saved := by
    rcases ran.disk_cases with ⟨_, _, rfl, isDisk⟩ | ⟨failed, lines, left, isDisk⟩ |
      ⟨notWritten, isDisk⟩
    · rw [isDisk]
      have left : [JournalLine.whole e'] = [] ∨ [JournalLine.whole e'] = [.whole e'] :=
        Or.inr rfl
      refine durably.extended (journaled_append durably.decodable left).1 (each_set ?_ ?_)
      · exact fun c member found journaled => stillSaved left member journaled
      · intro found journaled
        rw [← (journaled_writing.mp journaled).2, readJournal_concat_whole durably.decodable]
        simp
    · rw [isDisk]
      have wholeLines : lines = [] ∨ lines = [.whole e] := by
        rcases left with nothing | leaves
        · exact Or.inl nothing
        · rw [leaves]
          cases outcome : env.write with
          | torn => exact absurd outcome whole
          | lost => exact Or.inl rfl
          | ok | unsynced => exact Or.inr rfl
      refine durably.extended (journaled_append durably.decodable wholeLines).1 (each_set ?_ ?_)
      · exact fun c member found journaled => stillSaved wholeLines member journaled
      · intro found journaled
        exact absurd failed (journaled_writing.mp journaled).1.2.2
    · rw [isDisk]
      refine { durably with written := each_set durably.written ?_ }
      intro found journaled
      exact durably.written _ (List.mem_of_getElem? current) found
        (journaled_of_section ran notWritten journaled)
  rcases ran.store_cases with ⟨rfl, _, _, applied⟩ | ⟨notMarked, sameStore, _⟩
  · rw [applied, if_pos rfl]
    exact onDisk.stored e
  · rw [sameStore, if_neg notMarked]
    exact onDisk

theorem of_transition {w next : World} {act : Act}
    (durably : Durably base w.node.raft.st w.node.disk w.calls w.snapper w.history w.seen w.saved)
    (covered : w.Covered act) (moved : Transition w act next) :
    Durably base next.node.raft.st next.node.disk next.calls next.snapper next.history next.seen
      next.saved := by
  have carries := durably.carries
  cases moved with
  | refused => exact durably.concat rfl
  | called => exact durably.concat rfl
  | ran current ran => exact durably.of_section covered.1 current ran
  | copied stage =>
      exact { durably with
        seenPart := List.prefix_refl _
        carries := ⟨durably.savedPart, durably.store⟩ }
  | built stage =>
      rw [stage] at carries
      exact { durably with carries := carries }
  | @written snap stage =>
      rw [stage] at carries
      exact { durably with carries := ⟨carries.1, snap, rfl, carries.2⟩ }
  | closed stage =>
      rw [stage] at carries
      exact { durably with carries := carries }
  | renamed stage =>
      rw [stage] at carries
      obtain ⟨part, snap, isTmp, content⟩ := carries
      refine { durably with
        written := ?_, savedPart := durably.seenPart, carries := rfl, snapshot := ⟨base, ?_⟩ }
      · intro c member e journaled
        rcases List.mem_append.mp (durably.written c member e journaled) with inSaved | inJournal
        · exact List.mem_append_left _ (part.subset inSaved)
        · exact List.mem_append_right _ inJournal
      · rw [← content]
        change Disk.snapView ⟨_, none, w.node.disk.snapTmp⟩ = _
        rw [isTmp]
        rfl
  | truncated stage =>
      rw [stage] at carries
      refine { durably with decodable := rfl, written := ?_, carries := trivial }
      intro c member e journaled
      simp only [Covered, stage] at covered
      have inSeen := covered trivial e (List.mem_filterMap.mpr ⟨c, member, journaled⟩)
      have isSeen : w.saved = w.seen := carries
      rw [← isSeen] at inSeen
      exact List.mem_append_left _ inSeen
  | gaveUp => exact { durably with carries := trivial }
  | electionTimeout => exact durably

end Durably

/-! ## The order of the entries -/

/-- On every key the journal and the history are in the order of the indices, and a saved
entry does not come after all that the journal has on its key. -/
structure InOrder (disk : Disk) (calls : List Call) (history saved : List LogEntry) : Prop where
  lines : RankedPerKey LogEntry.key LogEntry.index disk.journaled
  updates : RankedPerKey LogEntry.key LogEntry.index history
  newest : ∀ x ∈ saved, ∀ y ∈ disk.journaled, y.key = x.key →
    ∃ z ∈ disk.journaled, z.key = x.key ∧ x.index ≤ z.index
  applied : ∀ x ∈ history, ∃ c ∈ calls, c.inPhase .stored = some x

theorem ranked_concat {events : List LogEntry} {e : LogEntry}
    (ranked : RankedPerKey LogEntry.key LogEntry.index events)
    (last : e.Follows events) :
    RankedPerKey LogEntry.key LogEntry.index (events ++ [e]) := by
  refine List.pairwise_append.mpr ⟨ranked, List.pairwise_singleton _ _, ?_⟩
  intro x member y isLast
  rw [List.mem_singleton.mp isLast]
  exact last x member

namespace InOrder

variable {calls : List Call} {history saved : List LogEntry}

theorem concat {disk : Disk} (inOrder : InOrder disk calls history saved) (c : Call) :
    InOrder disk (calls ++ [c]) history saved where
  lines := inOrder.lines
  updates := inOrder.updates
  newest := inOrder.newest
  applied := by
    intro x member
    obtain ⟨owner, isCall, stored⟩ := inOrder.applied x member
    exact ⟨owner, List.mem_append_left _ isCall, stored⟩

/-- The journal takes a line for an entry behind those of its key. -/
theorem journaled {disk : Disk} (inOrder : InOrder disk calls history saved)
    (decodable : (readJournal disk.journal).failure = none) {e : LogEntry}
    (last : e.Follows (saved ++ disk.journaled)) :
    InOrder { disk with journal := disk.journal ++ [.whole e] } calls history saved := by
  have onFile : Disk.journaled { disk with journal := disk.journal ++ [.whole e] } =
      disk.journaled ++ [e] := by
    unfold Disk.journaled
    rw [readJournal_concat_whole decodable]
  refine ⟨?_, inOrder.updates, ?_, inOrder.applied⟩
  · rw [onFile]
    exact ranked_concat inOrder.lines fun x member => last x (List.mem_append_right _ member)
  · rw [onFile]
    intro x isSaved y isLine sameKey
    by_cases onKey : x.key = e.key
    · exact ⟨e, List.mem_append_right _ List.mem_cons_self, onKey.symm,
        Nat.le_of_lt (last x (List.mem_append_left _ isSaved) onKey)⟩
    · rcases List.mem_append.mp isLine with earlier | isLast
      · obtain ⟨z, inJournal, onX, newer⟩ := inOrder.newest x isSaved y earlier sameKey
        exact ⟨z, List.mem_append_left _ inJournal, onX, newer⟩
      · rw [List.mem_singleton.mp isLast] at sameKey
        exact absurd sameKey.symm onKey

theorem of_section {w : World} {node : Node} {i : Nat} {req : Request} {e e' : LogEntry}
    {env : WriteEnv} {stage stage' : Stage}
    (inOrder : InOrder w.node.disk w.calls w.history w.saved)
    (decodable : (readJournal w.node.disk.journal).failure = none)
    (covered : w.Covered (.proceed i env))
    (current : w.calls[i]? = some (.writing req e stage))
    (ran : Node.Section w.node e env stage e' stage' node) :
    InOrder node.disk (w.calls.set i (.writing req e' stage'))
      (if stage = .marked then w.history ++ [e] else w.history) w.saved := by
  obtain ⟨whole, turn⟩ := covered
  unfold InIndexOrder at turn
  rw [current] at turn
  obtain ⟨written, applied⟩ := turn
  have onDisk : InOrder node.disk w.calls w.history w.saved := by
    rcases ran.line_cases whole with same | ⟨rfl, line⟩
    · rw [same]
      exact inOrder
    · rw [line]
      exact inOrder.journaled decodable (written e rfl)
  have kept : ∀ x ∈ w.history, ∃ c ∈ w.calls.set i (.writing req e' stage'),
      c.inPhase .stored = some x := by
    intro x member
    refine some_set current (inOrder.applied x member) ?_
    intro stored
    obtain ⟨phase, rfl⟩ := inPhase_writing.mp stored
    exact inPhase_writing.mpr ⟨ran.phase_of_stored phase, ran.entry_of_stored phase⟩
  rcases ran.store_cases with ⟨rfl, rfl, rfl, _⟩ | ⟨notMarked, _⟩
  · rw [if_pos rfl]
    refine ⟨onDisk.lines, ranked_concat inOrder.updates (applied _ rfl), onDisk.newest, ?_⟩
    exact each_concat kept ⟨_, mem_set_self current, rfl⟩
  · rw [if_neg notMarked]
    exact ⟨onDisk.lines, inOrder.updates, onDisk.newest, kept⟩

theorem of_transition {base : String → Option (Bytes × Nat)} {w next : World} {act : Act}
    (inOrder : InOrder w.node.disk w.calls w.history w.saved)
    (durably : Durably base w.node.raft.st w.node.disk w.calls w.snapper w.history w.seen w.saved)
    (covered : w.Covered act) (moved : Transition w act next) :
    InOrder next.node.disk next.calls next.history next.saved := by
  cases moved with
  | refused => exact inOrder.concat _
  | called => exact inOrder.concat _
  | ran current ran => exact inOrder.of_section durably.decodable covered current ran
  | renamed stage =>
      refine { inOrder with newest := ?_ }
      intro x isSeen y isLine sameKey
      -- what the copy has was written, to the journal or before the snapshot that was there
      obtain ⟨c, isCall, stored⟩ := inOrder.applied x (durably.seenPart.subset isSeen)
      rcases List.mem_append.mp (durably.written c isCall x (journaled_of_stored stored)) with
        isSaved | inJournal
      · exact inOrder.newest x isSaved y isLine sameKey
      · exact ⟨x, inJournal, rfl, Nat.le_refl _⟩
  | truncated stage =>
      exact { inOrder with
        lines := List.Pairwise.nil
        newest := fun x _ y isLine => absurd isLine List.not_mem_nil }
  | copied | built | written | closed | gaveUp | electionTimeout => exact { inOrder with }

end InOrder

/-- The directory holds the effect of every acknowledged write: its key has its effect or
that of an entry with a greater index. -/
structure Durable (w : World) : Prop where
  savedPart : w.saved <+: w.history
  holds : ∀ c ∈ w.calls, ∀ e, c.succeeded = some e →
    ∃ z ∈ w.saved ++ w.node.disk.journaled, z.key = e.key ∧ e.index ≤ z.index ∧
      w.node.disk.content e.key = z.effect

theorem durable_of_durably {w : World} {base : String → Option (Bytes × Nat)}
    (durably : Durably base w.node.raft.st w.node.disk w.calls w.snapper w.history w.seen w.saved)
    (inOrder : InOrder w.node.disk w.calls w.history w.saved) : w.Durable := by
  refine ⟨durably.savedPart, ?_⟩
  intro c member e succeeded
  have kept := durably.written c member e (journaled_of_succeeded succeeded)
  have ranked : RankedPerKey LogEntry.key LogEntry.index w.saved :=
    inOrder.updates.sublist durably.savedPart.sublist
  obtain ⟨start, isSnapshot⟩ := durably.snapshot
  unfold Disk.content
  rw [replay_apply]
  cases lastLine : lastOn LogEntry.key e.key w.node.disk.journaled with
  | some z =>
      obtain ⟨inJournal, onKey⟩ := mem_of_lastOn lastLine
      have most : ∀ x ∈ w.node.disk.journaled, x.key = e.key → x.index ≤ z.index := by
        intro x isLine onE
        rcases rank_le_of_lastOn inOrder.lines lastLine isLine onE with rfl | below
        · exact Nat.le_refl _
        · exact Nat.le_of_lt below
      refine ⟨z, List.mem_append_right _ inJournal, onKey, ?_, rfl⟩
      rcases List.mem_append.mp kept with isSaved | isLine
      · obtain ⟨x, isLine, onE, newer⟩ := inOrder.newest e isSaved z inJournal onKey
        exact newer.trans (most x isLine onE)
      · exact most e isLine rfl
  | none =>
      have isSaved : e ∈ w.saved := by
        refine (List.mem_append.mp kept).resolve_right fun isLine => ?_
        exact lastOn_eq_none_iff.mp lastLine e isLine rfl
      rw [isSnapshot]
      simp only [replay_apply]
      cases lastSaved : lastOn LogEntry.key e.key w.saved with
      | none => exact absurd rfl (lastOn_eq_none_iff.mp lastSaved e isSaved)
      | some z =>
          obtain ⟨member, onKey⟩ := mem_of_lastOn lastSaved
          refine ⟨z, List.mem_append_left _ member, onKey, ?_, rfl⟩
          rcases rank_le_of_lastOn ranked lastSaved isSaved rfl with rfl | below
          · exact Nat.le_refl _
          · exact Nat.le_of_lt below

/-- In every interleaving of calls and snapshots, from any node with a readable journal in
which the entries of a key are in the order of their indices, in which no journal write is
torn, the entries of a key are written and applied in that order and every truncation finds
the written entries covered by the copy, the directory holds every acknowledged write. -/
theorem acknowledged_writes_stay_on_disk {n : Node} {acts : List Act} {w : World}
    (decodable : (readJournal n.disk.journal).failure = none)
    (ranked : RankedPerKey LogEntry.key LogEntry.index n.disk.journaled)
    (covered : Guarded step Covered (boot n) acts)
    (reached : execute step (boot n) acts = some w) : w.Durable := by
  have booted : Durably n.raft.st.entries.view n.raft.st n.disk [] .idle [] [] [] :=
    ⟨rfl, decodable, by simp, List.nil_prefix, List.nil_prefix, trivial,
      ⟨n.disk.snapView, rfl⟩⟩
  have ordered : InOrder n.disk [] [] [] :=
    ⟨ranked, List.Pairwise.nil, by simp, by simp⟩
  obtain ⟨durably, inOrder⟩ := invariant_of_guarded step
    (fun w => Durably n.raft.st.entries.view w.node.raft.st w.node.disk w.calls w.snapper
      w.history w.seen w.saved ∧ InOrder w.node.disk w.calls w.history w.saved)
    (fun _ _ _ held covered stepped =>
      ⟨held.1.of_transition covered (transition_of_step stepped),
        held.2.of_transition held.1 covered (transition_of_step stepped)⟩)
    ⟨booted, ordered⟩ covered reached
  exact durable_of_durably durably inOrder

theorem acknowledged_writes_stay_on_disk_two_calls :
    ∃ w, execute step (boot testNode)
        ([.call (.put "a" [1])] ++ finishCall 0 ++ [.call (.put "b" [2]), .proceed 1 ⟨.ok, []⟩] ++
          List.replicate 6 (.snap true) ++ (finishCall 1).tail) = some w ∧
      (w.calls.filterMap Call.succeeded).length = 2 ∧ w.Durable := by
  refine exists_of_tested step (fun w => (w.calls.filterMap Call.succeeded).length = 2)
    (by decide) ?_
  intro w reached succeeded
  exact ⟨succeeded, acknowledged_writes_stay_on_disk rfl
    (show RankedPerKey LogEntry.key LogEntry.index testNode.disk.journaled from List.Pairwise.nil)
    (guarded_of_check step (by decide)) reached⟩

/-- After 256 writes the run loop takes a snapshot.  A put that is acknowledged
between the copy and the close is truncated away. -/
theorem put_during_snapshot_lost :
    ∃ n, execute Node.step testNode Node.writesToSnapshot = some n ∧ n.raft.SnapshotDue ∧
      ∃ w, execute step (boot n) ([.snap true, .call (.put "b" [2])] ++ finishCall 0 ++
          List.replicate 5 (.snap true)) = some w ∧
        w.calls = [.writing (.put "b" [2]) ⟨257, 1, .put, "b", [2], 1⟩
          (.returned (.entry (some ⟨"b", [2], 1, false⟩)))] ∧
        w.node.disk.content "b" = none ∧ ¬ w.Durable := by
  obtain ⟨n, reached, due, tested⟩ := exists_of_execute_test Node.step testNode
    Node.writesToSnapshot
    (fun n => n.raft.SnapshotDue ∧
      (execute step (boot n) ([.snap true, .call (.put "b" [2])] ++ finishCall 0 ++
          List.replicate 5 (.snap true))).map (fun w => decide (
        w.calls = [.writing (.put "b" [2]) ⟨257, 1, .put, "b", [2], 1⟩
          (.returned (.entry (some ⟨"b", [2], 1, false⟩)))] ∧
        w.node.disk.content "b" = none ∧ w.saved ++ w.node.disk.journaled = [])) = some true)
    (by decide +kernel)
  obtain ⟨w, reachedWorld, calls, content, nothing⟩ := exists_of_execute_test step (boot n) _ _ tested
  refine ⟨n, reached, due, w, reachedWorld, calls, content, ?_⟩
  intro durable
  obtain ⟨z, member, _⟩ := durable.holds _ (by rw [calls]; exact List.mem_cons_self) _ rfl
  rw [nothing] at member
  cases member

end World

end MiniCloud.Db
