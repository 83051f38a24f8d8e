import MiniCloud.Library.Runs
import MiniCloud.Library.Slots
import MiniCloud.ObjectStore.Confined

/-!
# Concurrent calls on one object

`PutObject` writes the file and then the record, and takes no lock.  Two puts can cross,
and a put can fail between its steps or within its file step; the record then describes
a payload that is not in the file.  As long as no put writes its file while another is
between its steps, and no put fails once it has begun to write, the record of an object
describes its payload whenever all calls have finished.
-/

namespace MiniCloud.ObjectStore

open MiniCloud.Library

/-- How far a call has got. -/
inductive Stage where
  | called
  /-- The first of the two steps is done: the file of a put, the record of a get or delete. -/
  | midway
  | done
  deriving DecidableEq, Repr

structure Task where
  call : ObjectCall
  stage : Stage
  deriving DecidableEq, Repr

structure Running where
  contents : Contents
  tasks : List Task

inductive Action where
  | call (call : ObjectCall)
  /-- A call takes its next step. -/
  | run (i : Nat) (f : Faults)
  deriving DecidableEq, Repr

section Object

variable (st : Store) (sha256 : Bytes → String) (bucket key : String)

/-- The next step of a call. -/
def advance (f : Faults) (s : Contents) : ObjectCall → Stage → Option (Contents × Stage)
  | .put none, .called => some (s, .done)
  | .put (some data), .called =>
      if bucket = "" ∨ key = "" then some (s, .done)
      else
        some ({ s with tree := (st.putFile f bucket key data s.tree).1 },
          if (st.putFile f bucket key data s.tree).2 then .midway else .done)
  | .put (some data), .midway =>
      some ((Store.putRecord sha256 f bucket key data s).1, .done)
  | .get, .called =>
      some (s, if (s.objects.lookup (bucket, key)).isSome then .midway else .done)
  | .get, .midway => some (s, .done)
  | .delete, .called =>
      some ((Store.deleteRecord f bucket key s).1,
        if (Store.deleteRecord f bucket key s).2.isNone then .midway else .done)
  | .delete, .midway =>
      some ({ s with tree := (st.deleteFile f bucket key s.tree).1 }, .done)
  | _, _ => none

def step (s : Running) : Action → Option Running
  | .call call => some { s with tasks := s.tasks ++ [⟨call, .called⟩] }
  | .run i f =>
      s.tasks[i]?.bind fun task =>
        (advance st sha256 bucket key f s.contents task.call task.stage).map fun next =>
          ⟨next.1, s.tasks.set i ⟨task.call, next.2⟩⟩

/-- The payload of a put whose record is still to be written. -/
def Task.written (task : Task) : Option Bytes :=
  match task with
  | ⟨.put data, .midway⟩ => data
  | _ => none

def Writing.isTorn : Writing → Bool
  | .torn _ => true
  | _ => false

/-- The condition on the call that goes on. -/
def Task.Uncrossed (tasks : List Task) (f : Faults) : Option Task → Prop
  | some ⟨.put _, .called⟩ => (∀ task ∈ tasks, task.written = none) ∧ f.write.isTorn = false
  | some ⟨.put _, .midway⟩ => f.record = none
  | _ => True

/-- A put writes its file while no other put is between its steps, and does not fail from
there on. -/
def Uncrossed (s : Running) : Action → Prop
  | .call _ => True
  | .run i f => Task.Uncrossed s.tasks f s.tasks[i]?

instance (tasks : List Task) (f : Faults) (task : Option Task) :
    Decidable (Task.Uncrossed tasks f task) :=
  match task with
  | some ⟨.put _, .called⟩ =>
      inferInstanceAs (Decidable ((∀ task ∈ tasks, task.written = none) ∧ f.write.isTorn = false))
  | some ⟨.put _, .midway⟩ => inferInstanceAs (Decidable (f.record = none))
  | some ⟨.put _, .done⟩ => isTrue trivial
  | some ⟨.get, _⟩ => isTrue trivial
  | some ⟨.delete, _⟩ => isTrue trivial
  | none => isTrue trivial

instance (s : Running) (action : Action) : Decidable (Uncrossed s action) :=
  match action with
  | .call _ => isTrue trivial
  | .run i f => inferInstanceAs (Decidable (Task.Uncrossed s.tasks f s.tasks[i]?))

/-- The metadata that `GetObject` returns describes the payload that it returns. -/
def Agrees (s : Contents) : Prop :=
  ∀ data o, st.getObject bucket key s = .ok (data, o) →
    o.size = data.length ∧ o.sha256 = sha256 data

/-- The record describes the payload unless a put is between its steps, and the file of
such a put holds its payload as long as it is there. -/
structure Steady (s : Running) : Prop where
  settled : (∀ task ∈ s.tasks, task.written = none) → Agrees st sha256 bucket key s.contents
  fresh : ∀ task ∈ s.tasks, ∀ data, task.written = some data → ∀ content,
    s.contents.tree.read (st.objectPath bucket key) = some content → content = data
  alone : EachPair (fun task other => task.written = none ∨ other.written = none) s.tasks

variable {st sha256 bucket key} {f : Faults} {s t : Contents} {tasks : List Task} {task : Task}
  {i : Nat} {data : Bytes}

/-- The steps of a call, one after the other, are the call of the store. -/
theorem advance_run (call : ObjectCall) (f : Faults) (s : Contents) :
    advance st sha256 bucket key f s call .called =
        some (st.run sha256 f s (.object call bucket key), .done) ∨
      ∃ t, advance st sha256 bucket key f s call .called = some (t, .midway) ∧
        advance st sha256 bucket key f t call .midway =
          some (st.run sha256 f s (.object call bucket key), .done) := by
  cases call with
  | put data =>
      rw [Store.run]
      by_cases given : ¬(bucket = "" ∨ key = "")
      · cases data with
        | none =>
            left
            rw [Store.putObject, if_neg given]
            rfl
        | some data =>
            rw [Store.putObject_contents given, advance, if_neg given]
            cases (st.putFile f bucket key data s.tree).2 with
            | false => exact Or.inl rfl
            | true => exact Or.inr ⟨_, rfl, rfl⟩
      · left
        unfold Store.putObject
        rw [if_pos (not_not.mp given)]
        cases data with
        | none => rfl
        | some data => rw [advance, if_pos (not_not.mp given)]
  | get =>
      rw [advance, Store.run]
      cases (s.objects.lookup (bucket, key)).isSome with
      | false => exact Or.inl rfl
      | true => exact Or.inr ⟨s, rfl, rfl⟩
  | delete =>
      rw [Store.run, Store.deleteObject_contents, advance]
      cases (Store.deleteRecord f bucket key s).2.isNone with
      | false => exact Or.inl rfl
      | true => exact Or.inr ⟨_, rfl, rfl⟩

/-- A call that runs alone is the call of the store. -/
theorem object_call_alone (call : ObjectCall) (f : Faults) (s : Contents) :
    ∃ actions, execute (step st sha256 bucket key) ⟨s, []⟩ actions =
      some ⟨st.run sha256 f s (.object call bucket key), [⟨call, .done⟩]⟩ := by
  rcases @advance_run st sha256 bucket key call f s with ends | ⟨t, first, second⟩
  · refine ⟨[.call call, .run 0 f], ?_⟩
    simp [execute, step, ends]
  · refine ⟨[.call call, .run 0 f, .run 0 f], ?_⟩
    simp [execute, step, first, second]

/-! ## The two steps -/

theorem agrees_iff : Agrees st sha256 bucket key s ↔
    ∀ data o, s.objects.lookup (bucket, key) = some o →
      s.tree.read (st.objectPath bucket key) = some data →
        o.size = data.length ∧ o.sha256 = sha256 data := by
  unfold Agrees Store.getObject
  constructor
  · intro agrees data o recorded stored
    refine agrees data o ?_
    rw [recorded, stored]
  · intro agrees data o got
    cases recorded : s.objects.lookup (bucket, key) with
    | none =>
        rw [recorded] at got
        cases got
    | some found =>
        cases stored : s.tree.read (st.objectPath bucket key) with
        | none =>
            rw [recorded, stored] at got
            cases got
        | some content =>
            rw [recorded, stored] at got
            cases Except.ok.inj got
            exact agrees data o recorded stored

/-- A file step that succeeds has stored the payload. -/
theorem read_putFile (tree : FileTree) (done : (st.putFile f bucket key data tree).2 = true) :
    (st.putFile f bucket key data tree).1.read (st.objectPath bucket key) = some data := by
  rcases @Store.putFile_cases st bucket key f data tree with
    ⟨failed, _⟩ | ⟨_, ⟨_, stored⟩ | ⟨failed, _⟩⟩
  · rw [done] at failed
    cases failed
  · exact stored
  · rw [done] at failed
    cases failed

/-- One that fails before the write has left the file as it was. -/
theorem read_putFile_failed (tree : FileTree) (whole : f.write.isTorn = false)
    (failed : (st.putFile f bucket key data tree).2 = false) :
    (st.putFile f bucket key data tree).1.read (st.objectPath bucket key) =
      tree.read (st.objectPath bucket key) := by
  rcases @Store.putFile_cases st bucket key f data tree with
    ⟨_, same⟩ | ⟨_, ⟨done, _⟩ | ⟨_, written, isTorn⟩⟩
  · exact same _
  · rw [failed] at done
    cases done
  · rw [isTorn] at whole
    cases whole

theorem read_deleteFile (tree : FileTree) :
    (st.deleteFile f bucket key tree).1.read (st.objectPath bucket key) =
        tree.read (st.objectPath bucket key) ∨
      (st.deleteFile f bucket key tree).1.read (st.objectPath bucket key) = none := by
  unfold Store.deleteFile
  split
  · exact Or.inl rfl
  split
  · exact Or.inl rfl
  · rename_i removed
    exact Or.inr (FileTree.read_remove_self removed)

/-! ## The invariant -/

/-- Steps that take away a file or a record, or nothing, keep the agreement. -/
theorem Agrees.shrink (agrees : Agrees st sha256 bucket key s)
    (file : t.tree.read (st.objectPath bucket key) = s.tree.read (st.objectPath bucket key) ∨
      t.tree.read (st.objectPath bucket key) = none)
    (record : t.objects.lookup (bucket, key) = s.objects.lookup (bucket, key) ∨
      t.objects.lookup (bucket, key) = none) : Agrees st sha256 bucket key t := by
  rw [agrees_iff] at agrees ⊢
  intro data o recorded stored
  rcases file with sameFile | noFile
  · rcases record with sameRecord | noRecord
    · exact agrees data o (sameRecord ▸ recorded) (sameFile ▸ stored)
    · rw [noRecord] at recorded
      cases recorded
  · rw [noFile] at stored
    cases stored

theorem Steady.start (agrees : Agrees st sha256 bucket key s) :
    Steady st sha256 bucket key ⟨s, []⟩ where
  settled := fun _ => agrees
  fresh := by
    intro task member
    cases member
  alone := EachPair.nil

theorem Steady.call (steady : Steady st sha256 bucket key ⟨s, tasks⟩) (call : ObjectCall) :
    Steady st sha256 bucket key ⟨s, tasks ++ [⟨call, .called⟩]⟩ := by
  have waiting : Task.written ⟨call, .called⟩ = none := by
    cases call with
    | put data => rfl
    | get => rfl
    | delete => rfl
  refine ⟨?_, ?_, ?_⟩
  · intro nothingWritten
    exact steady.settled fun task member => nothingWritten task (List.mem_append_left _ member)
  · refine each_concat steady.fresh ?_
    intro data isWritten
    rw [waiting] at isWritten
    cases isWritten
  · refine steady.alone.concat ?_
    intro other _
    exact ⟨Or.inl waiting, Or.inr waiting⟩

/-- A step of a call that is no put between its steps, before or after it. -/
theorem Steady.shrink {new : Task} (steady : Steady st sha256 bucket key ⟨s, tasks⟩)
    (found : tasks[i]? = some task) (before : task.written = none) (after : new.written = none)
    (file : t.tree.read (st.objectPath bucket key) = s.tree.read (st.objectPath bucket key) ∨
      t.tree.read (st.objectPath bucket key) = none)
    (record : t.objects.lookup (bucket, key) = s.objects.lookup (bucket, key) ∨
      t.objects.lookup (bucket, key) = none) :
    Steady st sha256 bucket key ⟨t, tasks.set i new⟩ where
  settled := by
    intro nothingWritten
    refine (steady.settled ?_).shrink file record
    intro other member
    obtain ⟨j, inSlot⟩ := List.mem_iff_getElem?.mp member
    by_cases same : j = i
    · subst same
      rw [found, Option.some.injEq] at inSlot
      exact inSlot ▸ before
    · exact nothingWritten other (mem_set_other same inSlot)
  fresh := by
    have kept : ∀ other ∈ tasks, ∀ data, other.written = some data → ∀ content,
        t.tree.read (st.objectPath bucket key) = some content → content = data := by
      intro other member data isWritten content stored
      rcases file with sameFile | noFile
      · exact steady.fresh other member data isWritten content (sameFile ▸ stored)
      · rw [noFile] at stored
        cases stored
    refine each_set kept ?_
    intro data isWritten
    rw [after] at isWritten
    cases isWritten
  alone := by
    refine steady.alone.set found ?_
    intro other _ _ _
    exact ⟨Or.inl after, Or.inr after⟩

/-- A put that writes its file while no other is between its steps. -/
theorem Steady.write {new : Task} (steady : Steady st sha256 bucket key ⟨s, tasks⟩)
    (found : tasks[i]? = some task) (alone : ∀ task ∈ tasks, task.written = none)
    (isWritten : new.written = some data)
    (stored : t.tree.read (st.objectPath bucket key) = some data) :
    Steady st sha256 bucket key ⟨t, tasks.set i new⟩ where
  settled := by
    intro nothingWritten
    rw [nothingWritten new (mem_set_self found)] at isWritten
    cases isWritten
  fresh := by
    have others : ∀ other ∈ tasks, ∀ data, other.written = some data → ∀ content,
        t.tree.read (st.objectPath bucket key) = some content → content = data := by
      intro other member data wrong
      rw [alone other member] at wrong
      cases wrong
    refine each_set others ?_
    intro data' isWritten' content stored'
    rw [stored] at stored'
    rw [isWritten] at isWritten'
    exact (Option.some.inj stored').symm.trans (Option.some.inj isWritten')
  alone := by
    refine steady.alone.set found ?_
    intro other member _ _
    exact ⟨Or.inr (alone other member), Or.inl (alone other member)⟩

/-- The put that wrote the file writes the record. -/
theorem Steady.record {new : Task} (steady : Steady st sha256 bucket key ⟨s, tasks⟩)
    (found : tasks[i]? = some task) (before : task.written = some data)
    (after : new.written = none) (sameFiles : t.tree = s.tree)
    (record : t.objects.lookup (bucket, key) = some (Store.describe sha256 bucket key data)) :
    Steady st sha256 bucket key ⟨t, tasks.set i new⟩ where
  settled := by
    intro _
    rw [agrees_iff]
    intro content o recorded stored
    rw [record, Option.some.injEq] at recorded
    rw [sameFiles] at stored
    have same := steady.fresh task (List.mem_of_getElem? found) data before content stored
    subst same recorded
    exact ⟨rfl, rfl⟩
  fresh := by
    intro other member data' isWritten
    obtain ⟨j, inSlot⟩ := List.mem_iff_getElem?.mp member
    rcases getElem?_set_cases inSlot with ⟨_, isNew⟩ | ⟨different, inTasks⟩
    · rw [isNew, after] at isWritten
      cases isWritten
    · rcases steady.alone i j task other (Ne.symm different) found inTasks with wrong | unwritten
      · rw [before] at wrong
        cases wrong
      · rw [unwritten] at isWritten
        cases isWritten
  alone := by
    refine steady.alone.set found ?_
    intro other _ _ _
    exact ⟨Or.inl after, Or.inr after⟩

/-- The steps of a put. -/
theorem Steady.put {stage current : Stage} {data : Option Bytes}
    (steady : Steady st sha256 bucket key ⟨s, tasks⟩)
    (found : tasks[i]? = some ⟨.put data, current⟩)
    (uncrossed : Task.Uncrossed tasks f (some ⟨.put data, current⟩))
    (advanced : advance st sha256 bucket key f s (.put data) current = some (t, stage)) :
    Steady st sha256 bucket key ⟨t, tasks.set i ⟨.put data, stage⟩⟩ := by
  cases data with
  | none =>
      cases current with
      | called =>
          cases Option.some.inj advanced
          exact steady.shrink found rfl rfl (Or.inl rfl) (Or.inl rfl)
      | midway => cases advanced
      | done => cases advanced
  | some data =>
      cases current with
      | called =>
          obtain ⟨alone, whole⟩ := uncrossed
          change (if bucket = "" ∨ key = "" then some (s, Stage.done)
            else some ({ s with tree := (st.putFile f bucket key data s.tree).1 },
              if (st.putFile f bucket key data s.tree).2 then Stage.midway else Stage.done)) =
                some (t, stage) at advanced
          split at advanced
          · cases Option.some.inj advanced
            exact steady.shrink found rfl rfl (Or.inl rfl) (Or.inl rfl)
          cases ending : (st.putFile f bucket key data s.tree).2 with
          | true =>
              rw [ending] at advanced
              cases Option.some.inj advanced
              exact steady.write found alone rfl (read_putFile s.tree ending)
          | false =>
              rw [ending] at advanced
              cases Option.some.inj advanced
              exact steady.shrink found rfl rfl
                (Or.inl (read_putFile_failed s.tree whole ending)) (Or.inl rfl)
      | midway =>
          cases Option.some.inj advanced
          have accepted : f.record = none := uncrossed
          have recorded : (Store.putRecord sha256 f bucket key data s).1 =
              ⟨s.tree, s.objects.insert (bucket, key) (Store.describe sha256 bucket key data)⟩ := by
            rw [Store.putRecord, accepted]
          rw [recorded]
          exact steady.record found rfl rfl rfl (AList.lookup_insert _)
      | done => cases advanced

/-- The steps of a delete. -/
theorem Steady.delete {stage current : Stage} (steady : Steady st sha256 bucket key ⟨s, tasks⟩)
    (found : tasks[i]? = some ⟨.delete, current⟩)
    (advanced : advance st sha256 bucket key f s .delete current = some (t, stage)) :
    Steady st sha256 bucket key ⟨t, tasks.set i ⟨.delete, stage⟩⟩ := by
  cases current with
  | called =>
      cases Option.some.inj advanced
      refine steady.shrink found rfl rfl ?_ ?_
      · unfold Store.deleteRecord
        split
        · exact Or.inl rfl
        · exact Or.inl rfl
      · unfold Store.deleteRecord
        split
        · exact Or.inl rfl
        · exact Or.inr (AList.lookup_erase _ _)
  | midway =>
      cases Option.some.inj advanced
      exact steady.shrink found rfl rfl (read_deleteFile s.tree) (Or.inl rfl)
  | done => cases advanced

theorem Steady.step {s t : Running} {action : Action} (steady : Steady st sha256 bucket key s)
    (uncrossed : Uncrossed s action) (stepped : step st sha256 bucket key s action = some t) :
    Steady st sha256 bucket key t := by
  cases action with
  | call call =>
      cases Option.some.inj stepped
      exact steady.call call
  | run i f =>
      obtain ⟨⟨call, current⟩, found, stepped⟩ := Option.bind_eq_some_iff.mp stepped
      obtain ⟨⟨after, stage⟩, advanced, isNext⟩ := Option.map_eq_some_iff.mp stepped
      subst isNext
      change Task.Uncrossed s.tasks f s.tasks[i]? at uncrossed
      rw [found] at uncrossed
      cases call with
      | put data => exact steady.put found uncrossed advanced
      | get =>
          cases current with
          | called =>
              cases Option.some.inj advanced
              exact steady.shrink found rfl rfl (Or.inl rfl) (Or.inl rfl)
          | midway =>
              cases Option.some.inj advanced
              exact steady.shrink found rfl rfl (Or.inl rfl) (Or.inl rfl)
          | done => cases advanced
      | delete => exact steady.delete found advanced

theorem written_done {tasks : List Task} (finished : ∀ task ∈ tasks, task.stage = .done) :
    ∀ task ∈ tasks, task.written = none := by
  rintro ⟨call, stage⟩ member
  cases finished _ member
  cases call with
  | put data => rfl
  | get => rfl
  | delete => rfl

/-- In every run in which a put writes its file while no other is between its steps, and does
not fail from there on, the metadata of the object describes its payload whenever all calls
have finished. -/
theorem payload_described {s : Contents} {actions : List Action} {last : Running}
    (agrees : Agrees st sha256 bucket key s)
    (uncrossed : Guarded (ObjectStore.step st sha256 bucket key) Uncrossed ⟨s, []⟩ actions)
    (reached : execute (ObjectStore.step st sha256 bucket key) ⟨s, []⟩ actions = some last)
    (finished : ∀ task ∈ last.tasks, task.stage = .done) :
    Agrees st sha256 bucket key last.contents := by
  have steady := invariant_of_guarded (ObjectStore.step st sha256 bucket key)
    (Steady st sha256 bucket key) (fun _ _ _ held guard stepped => held.step guard stepped)
    (Steady.start agrees) uncrossed reached
  exact steady.settled (written_done finished)

end Object

/-- A put, a failed one and a get, one after the other. -/
theorem payload_described_sample :
    ∃ last, execute (step (.under "data") sampleDigest "logs" "may") ⟨⟨∅, ∅⟩, []⟩
        [.call (.put (some [1])), .call (.put (some [2])), .call .get, .run 0 .none, .run 0 .none,
          .run 2 .none, .run 2 .none, .run 1 { Faults.none with write := .refused }] = some last ∧
      Agrees (.under "data") sampleDigest "logs" "may" last.contents := by
  have empty : Agrees (.under "data") sampleDigest "logs" "may" ⟨∅, ∅⟩ := by
    intro data o got
    cases got
  refine exists_of_tested (step (.under "data") sampleDigest "logs" "may")
    (fun last => ∀ task ∈ last.tasks, task.stage = .done) (by decide +kernel) ?_
  intro last reached finished
  exact payload_described empty (guarded_of_check _ (by decide +kernel)) reached finished

/-- Two puts cross: the file is that of the second, and the record that of the first. -/
theorem crossed_puts_disagree :
    ∃ last, execute (step (.under "data") sampleDigest "logs" "may") ⟨⟨∅, ∅⟩, []⟩
        [.call (.put (some [1])), .call (.put (some [2])), .run 0 .none, .run 1 .none,
          .run 1 .none, .run 0 .none] = some last ∧
      (∀ task ∈ last.tasks, task.stage = .done) ∧
      ¬Agrees (.under "data") sampleDigest "logs" "may" last.contents := by
  refine exists_of_tested (step (.under "data") sampleDigest "logs" "may")
    (fun last => (∀ task ∈ last.tasks, task.stage = .done) ∧
      (Store.under "data").getObject "logs" "may" last.contents =
        .ok ([2], Store.describe sampleDigest "logs" "may" [1])) (by decide +kernel) ?_
  rintro last _ ⟨finished, got⟩
  refine ⟨finished, ?_⟩
  intro agrees
  exact absurd (agrees _ _ got).2 (by decide)

end MiniCloud.ObjectStore
