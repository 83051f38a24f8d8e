import MiniCloud.Db.Acknowledged

/-!
# The versions of one key along a run

`Put` and `CompareAndSwap` derive the next version from the entry that is stored
now, and start again at one for an absent key.  As long as a key is not removed
its versions grow by one with every successful write, and a version that was
read identifies the write it came from.  A removal forgets the version.
-/

namespace MiniCloud.Db

open MiniCloud.Library

/-- The entry that an operation has journaled when it is answered without an
error. -/
def Op.wrote (n : Node) (op : Op) : Option LogEntry :=
  match op.request n, (n.react op).1 with
  | some _, .failed _ => none
  | some (e, _), _ => some e
  | none, _ => none

namespace Node

/-- The entries of the successful writes of a run, in their order. -/
def written : Node → List Op → List LogEntry
  | _, [] => []
  | n, op :: rest =>
      (op.wrote n).toList ++
        match n.step op with
        | none => []
        | some next => next.written rest

/-- The successful writes of one key. -/
def writtenTo (key : String) (n : Node) (ops : List Op) : List LogEntry :=
  (n.written ops).filter fun e => e.key = key

/-- The versions that the successful writes of a key were assigned. -/
def assigned (key : String) (n : Node) (ops : List Op) : List Nat :=
  ((n.writtenTo key ops).filter fun e => e.op = .put).map LogEntry.version

/-- The version stored under a key, zero for an absent one. -/
def storedVersion (n : Node) (key : String) : Nat :=
  ((n.raft.st.get key).map Entry.version).getD 0

/-- The operation is no restart, and it does not remove the key. -/
def Keeps (key : String) (n : Node) (op : Op) : Prop :=
  op ≠ .reopen ∧
    ∀ e ∈ op.wrote n, e.key = key → e.op = .del → n.raft.st.get key = none

/-! ## One operation -/

/-- Only a restart can fail to leave a node. -/
theorem exists_step (n : Node) {op : Op} (noRestart : op ≠ .reopen) :
    ∃ next, n.step op = some next := by
  cases op with
  | put | delete | compareAndSwap | get | list | snapshot | electionTimeout =>
      exact ⟨_, rfl⟩
  | reopen => exact absurd rfl noRestart

theorem written_cons {n next : Node} {op : Op} (stepped : n.step op = some next)
    (rest : List Op) : n.written (op :: rest) = (op.wrote n).toList ++ next.written rest := by
  rw [written, stepped]

/-- The version test passes only on the stored version. -/
theorem storedVersion_of_checkVersion {n : Node} {key : String} {expect version : Nat}
    (checked : n.raft.checkVersion key expect = some version) :
    n.storedVersion key = expect := by
  unfold Raft.checkVersion at checked
  unfold storedVersion Store.get
  cases stored : n.raft.st.entries.lookup key with
  | none =>
      rw [stored] at checked
      have zero : expect = 0 := by simpa using Option.isSome_of_eq_some checked
      exact zero.symm
  | some cur =>
      rw [stored] at checked
      have same : cur.version = expect := by simpa using Option.isSome_of_eq_some checked
      exact same

/-- The version of an entry to be put is the successor of the stored one. -/
theorem request_version {n : Node} {op : Op} {e : LogEntry} {env : WriteEnv}
    (request : op.request n = some (e, env)) (puts : e.op = .put) :
    e.version = n.storedVersion e.key + 1 := by
  cases op with
  | put key value env =>
      cases request
      change n.raft.nextVersion key = n.storedVersion key + 1
      unfold Raft.nextVersion storedVersion Store.get
      cases n.raft.st.entries.lookup key <;> rfl
  | delete key env =>
      cases request
      cases puts
  | compareAndSwap key value expect env =>
      obtain ⟨version, checked, same⟩ := Option.map_eq_some_iff.mp request
      cases same
      change version = n.storedVersion key + 1
      rw [checkVersion_eq_some checked, storedVersion_of_checkVersion checked]
  | get | list | snapshot | electionTimeout | reopen => cases request

theorem store_of_wrote {n next : Node} {op : Op} {e : LogEntry} (ready : n.raft.Ready)
    (wrote : op.wrote n = some e) (stepped : n.step op = some next) :
    (∃ env, op.request n = some (e, env)) ∧ next.raft.st = n.raft.st.apply (n.raft.number e) := by
  unfold Op.wrote at wrote
  cases request : op.request n with
  | none =>
      rw [request] at wrote
      cases wrote
  | some handed =>
      obtain ⟨entry, env⟩ := handed
      have reacted := react_of_request request
      rw [request] at wrote
      have noError : ∀ err, replyTo entry (n.submit entry env) ≠ .failed err := by
        intro err failed
        rw [reacted, failed] at wrote
        cases wrote
      have sameEntry : entry = e := by
        split at wrote
        · cases wrote
        · rename_i given _
          cases given
          exact Option.some.inj wrote
        · cases wrote
      obtain ⟨commitIndex, accepted⟩ := accepted_of_replyTo noError
      have sameNext : (n.submit entry env).2 = next :=
        Option.some.inj ((congrArg Prod.snd reacted).symm.trans stepped)
      rw [← sameNext, accepted, ← sameEntry]
      exact ⟨⟨env, rfl⟩, congrArg Prod.fst (accepts_st_of_ready ready entry commitIndex)⟩

theorem store_of_not_wrote {n next : Node} {op : Op} (noRestart : op ≠ .reopen)
    (silent : op.wrote n = none) (stepped : n.step op = some next) :
    next.raft.st = n.raft.st := by
  have transition : Transition n op (n.react op).1 next :=
    transition_of_react (Prod.ext rfl stepped)
  unfold Op.wrote at silent
  generalize (n.react op).1 = reply at silent transition
  cases transition with
  | get | list | mismatch | electionTimeout => rfl
  | failed request submitted => cases submitted <;> rfl
  | acknowledged request submitted =>
      rw [request] at silent
      split at silent
      · rename_i replied
        unfold acknowledge at replied
        split at replied <;> cases replied
      · cases silent
      · rename_i given
        cases given
  | snapshot outcome =>
      exact congrArg Prod.fst (snapshotted_snapshot n outcome).core
  | reopen => exact absurd rfl noRestart

theorem get_of_applied {n next : Node} {e : LogEntry}
    (applied : next.raft.st = n.raft.st.apply (n.raft.number e)) :
    next.raft.st.get e.key = e.stored := by
  rw [applied]
  exact Store.get_apply_self n.raft.st (n.raft.number e)

/-- What an operation that keeps the key does to it: a successful put raises the
version by one, and everything else leaves the content as it is. -/
theorem key_of_step {key : String} {n next : Node} {op : Op} (ready : n.raft.Ready)
    (keeps : Keeps key n op) (stepped : n.step op = some next) :
    (∃ e, op.wrote n = some e ∧ e.key = key ∧ e.op = .put ∧
      e.version = n.storedVersion key + 1 ∧
      next.raft.st.get key = some ⟨key, e.value, e.version, false⟩) ∨
    (∀ e, op.wrote n = some e → e.key = key → e.op = .del ∧ n.raft.st.get key = none) ∧
      next.raft.st.get key = n.raft.st.get key := by
  cases outcome : op.wrote n with
  | none =>
      refine Or.inr ⟨?_, ?_⟩
      · intro e wrote
        cases wrote
      · rw [store_of_not_wrote keeps.1 outcome stepped]
  | some e =>
      obtain ⟨⟨env, request⟩, applied⟩ := store_of_wrote ready outcome stepped
      have stored := get_of_applied applied
      by_cases sameKey : e.key = key
      · subst sameKey
        unfold LogEntry.stored at stored
        cases kind : e.op with
        | put =>
            rw [kind] at stored
            exact Or.inl ⟨e, rfl, rfl, kind, request_version request kind, stored⟩
        | del =>
            rw [kind] at stored
            have absent := keeps.2 e outcome rfl kind
            refine Or.inr ⟨?_, stored.trans absent.symm⟩
            intro other wrote _
            cases wrote
            exact ⟨kind, absent⟩
      · refine Or.inr ⟨?_, ?_⟩
        · intro other wrote same
          cases wrote
          exact absurd same sameKey
        · rw [applied]
          exact Store.get_apply_ne n.raft.st (Ne.symm sameKey)

theorem ready_of_step {key : String} {n next : Node} {op : Op} (ready : n.raft.Ready)
    (keeps : Keeps key n op) (stepped : n.step op = some next) : next.raft.Ready := by
  obtain ⟨reply, transition⟩ := transition_of_step stepped
  exact ready_of_transition ready (fun restart => absurd restart keeps.1) transition

/-! ## A whole run -/

/-- The versions assigned along a run that keeps the key are above the stored
one and strictly increasing. -/
theorem assigned_increasing {key : String} {n : Node} {ops : List Op} (ready : n.raft.Ready)
    (kept : Guarded step (Keeps key) n ops) :
    (∀ version ∈ n.assigned key ops, n.storedVersion key < version) ∧
      (n.assigned key ops).Pairwise (· < ·) := by
  induction ops generalizing n with
  | nil =>
      refine ⟨?_, List.Pairwise.nil⟩
      intro version member
      cases member
  | cons op rest ih =>
      obtain ⟨next, stepped⟩ := exists_step n kept.1.1
      obtain ⟨above, increasing⟩ := ih (ready_of_step ready kept.1 stepped)
        (kept.2 next stepped)
      rcases key_of_step ready kept.1 stepped with
        ⟨e, wrote, sameKey, puts, version, stored⟩ | ⟨silent, stored⟩
      · have head : n.assigned key (op :: rest) = e.version :: next.assigned key rest := by
          simp [assigned, writtenTo, written_cons stepped, wrote, sameKey, puts]
        have raised : next.storedVersion key = e.version := by
          simp [storedVersion, stored]
        rw [head]
        rw [raised] at above
        refine ⟨?_, List.pairwise_cons.mpr ⟨above, increasing⟩⟩
        intro other member
        rcases List.mem_cons.mp member with isHead | inRest
        · omega
        · have later := above other inRest
          omega
      · have head : n.assigned key (op :: rest) = next.assigned key rest := by
          have skipped : ((op.wrote n).toList.filter fun e => e.key = key).filter
              (fun e => e.op = .put) = [] := by
            cases outcome : op.wrote n with
            | none => rfl
            | some e =>
                by_cases sameKey : e.key = key
                · simp [sameKey, (silent e outcome sameKey).1]
                · simp [sameKey]
          simp only [assigned, writtenTo, written_cons stepped, List.filter_append, skipped,
            List.nil_append]
        have same : next.storedVersion key = n.storedVersion key := by
          unfold storedVersion
          rw [stored]
        rw [head, ← same]
        exact ⟨above, increasing⟩

/-- A run that keeps a present key raises its version with every successful
write of the key. -/
theorem version_of_run {key : String} {n last : Node} {ops : List Op} (ready : n.raft.Ready)
    (kept : Guarded step (Keeps key) n ops) (reached : execute step n ops = some last)
    (present : (n.raft.st.get key).isSome) :
    (last.raft.st.get key).isSome ∧ n.storedVersion key ≤ last.storedVersion key ∧
      (n.writtenTo key ops ≠ [] → n.storedVersion key < last.storedVersion key) := by
  induction ops generalizing n with
  | nil =>
      cases Option.some.inj reached
      exact ⟨present, Nat.le_refl _, fun wrote => absurd rfl wrote⟩
  | cons op rest ih =>
      simp only [execute_cons, Option.bind_eq_some_iff] at reached
      obtain ⟨next, stepped, reached⟩ := reached
      have later := ih (ready_of_step ready kept.1 stepped) (kept.2 next stepped) reached
      rcases key_of_step ready kept.1 stepped with
        ⟨e, wrote, sameKey, puts, version, stored⟩ | ⟨silent, stored⟩
      · have raised : next.storedVersion key = e.version := by
          simp [storedVersion, stored]
        obtain ⟨kept, grows, _⟩ := later (by rw [stored]; rfl)
        exact ⟨kept, by omega, fun _ => by omega⟩
      · have same : next.storedVersion key = n.storedVersion key := by
          unfold storedVersion
          rw [stored]
        have unwritten : n.writtenTo key (op :: rest) = next.writtenTo key rest := by
          have skipped : (op.wrote n).toList.filter (fun e => e.key = key) = [] := by
            cases outcome : op.wrote n with
            | none => rfl
            | some e =>
                have other : e.key ≠ key := by
                  intro sameKey
                  rw [(silent e outcome sameKey).2] at present
                  cases present
                simp [other]
          simp only [writtenTo, written_cons stepped, List.filter_append, skipped,
            List.nil_append]
        rw [unwritten, ← same]
        exact later (by rw [stored]; exact present)

/-- A successful compare-and-swap found the expected version. -/
theorem storedVersion_of_compareAndSwap {n : Node} {key : String} {value : Bytes}
    {expect : Nat} {env : WriteEnv}
    (wrote : ((Op.compareAndSwap key value expect env).wrote n).isSome) :
    n.storedVersion key = expect := by
  cases checked : n.raft.checkVersion key expect with
  | none => simp [Op.wrote, Op.request, checked] at wrote
  | some version => exact storedVersion_of_checkVersion checked

/-- In every run from an empty directory without restarts in which the key is
not removed, its versions are strictly increasing, and a compare-and-swap that
expects a version read earlier succeeds only if nothing was written to the key
since that read. -/
theorem versions_increase_without_removal {cfg : Config} {start : Node} {ops : List Op}
    {key : String} (started : Started cfg start)
    (kept : Guarded step (Keeps key) start ops) :
    (start.assigned key ops).Pairwise (· < ·) ∧
      ∀ before between after reader writer e value env,
        ops = before ++ .get key ::
          (between ++ .compareAndSwap key value e.version env :: after) →
        execute step start before = some reader → reader.get key = .entry (some e) →
        execute step reader between = some writer →
        ((Op.compareAndSwap key value e.version env).wrote writer).isSome →
        reader.writtenTo key between = [] := by
  have startReady : start.raft.Ready := by
    refine (ready_openOn_iff started).mpr ?_
    intro e member
    cases member
  refine ⟨(assigned_increasing startReady kept).2, ?_⟩
  intro before between after reader writer e value env split reached read reachedBetween wrote
  rw [split, guarded_append step reached] at kept
  have keptBetween := (guarded_append step reachedBetween).mp (kept.2.2 reader rfl)
  have ready : reader.raft.Ready :=
    invariant_of_guarded step (fun n => n.raft.Ready)
      (fun _ _ _ ready keeps stepped => ready_of_step ready keeps stepped)
      startReady kept.1 reached
  have stored : reader.raft.st.get key = some e := by
    unfold get at read
    split at read
    · cases read
    · rename_i found
      cases read
      exact found
  have readVersion : reader.storedVersion key = e.version := by
    simp [storedVersion, stored]
  obtain ⟨_, _, raised⟩ := version_of_run ready keptBetween.1 reachedBetween
    (by rw [stored]; rfl)
  have expected := storedVersion_of_compareAndSwap wrote
  by_contra written
  have higher := raised written
  omega

instance (key : String) (n : Node) (op : Op) : Decidable (Keeps key n op) :=
  inferInstanceAs (Decidable (op ≠ .reopen ∧
    ∀ e ∈ op.wrote n, e.key = key → e.op = .del → n.raft.st.get key = none))

theorem versions_increase_around_swap :
    testNode.assigned "a" [.delete "a" ⟨.ok, []⟩, .put "a" [1] ⟨.ok, []⟩, .get "a",
        .put "b" [2] ⟨.ok, []⟩, .compareAndSwap "a" [3] 1 ⟨.ok, []⟩] = [1, 2] ∧
      (testNode.assigned "a" [.delete "a" ⟨.ok, []⟩, .put "a" [1] ⟨.ok, []⟩, .get "a",
        .put "b" [2] ⟨.ok, []⟩, .compareAndSwap "a" [3] 1 ⟨.ok, []⟩]).Pairwise (· < ·) :=
  ⟨by decide, (versions_increase_without_removal testNode_started
    (guarded_of_check step (by decide))).1⟩

/-- A removal in between: the re-created key has the version that was read, and
the stale compare-and-swap succeeds. -/
theorem version_reused_after_delete :
    Started testConfig testNode ∧ SingleNode testConfig ∧
      testNode.assigned "a" [.put "a" [1] ⟨.ok, []⟩, .get "a", .delete "a" ⟨.ok, []⟩,
        .put "a" [2] ⟨.ok, []⟩, .compareAndSwap "a" [3] 1 ⟨.ok, []⟩] = [1, 1, 2] ∧
      answers react testNode [.put "a" [1] ⟨.ok, []⟩, .get "a", .delete "a" ⟨.ok, []⟩,
          .put "a" [2] ⟨.ok, []⟩, .compareAndSwap "a" [3] 1 ⟨.ok, []⟩] =
        [.entry (some ⟨"a", [1], 1, false⟩), .entry (some ⟨"a", [1], 1, false⟩), .done,
          .entry (some ⟨"a", [2], 1, false⟩), .entry (some ⟨"a", [3], 2, false⟩)] :=
  ⟨testNode_started, rfl, by decide, by decide⟩

end Node

end MiniCloud.Db
