import Mathlib.Data.List.AList
import Mathlib.Data.List.Infix
import MiniCloud.Library.Paths

/-!
# File trees

The files and directories of a file system, by their cleaned paths, with the calls that
programs make on them.  A call that returns `none` has failed and has changed nothing;
what a write leaves that fails half way is up to its caller.

Each call changes the contents of one path, and every other file is read as before.
-/

namespace MiniCloud.Library

abbrev Bytes := List UInt8

inductive Entry where
  | directory
  | file (content : Bytes)
  deriving DecidableEq, Repr

abbrev FileTree := AList fun _ : Path => Entry

namespace FileTree

/-- What is found at a path; a path that ends in no name is a directory. -/
def entry (t : FileTree) (p : Path) : Option Entry :=
  if p.named then t.lookup p else some .directory

/-- The content of the file at a path. -/
def read (t : FileTree) (p : Path) : Option Bytes :=
  match t.entry p with
  | some (.file content) => some content
  | _ => none

/-- A path with the directories above it, from the top. -/
def upTo (p : Path) : List Path := p.stack.tails.reverse.map (Path.mk p.rooted)

def mkdir (t : FileTree) (p : Path) : FileTree :=
  match t.entry p with
  | none => t.insert p .directory
  | some _ => t

/-- `os.MkdirAll` fails if there is a file on the way. -/
def mkdirAll (t : FileTree) (p : Path) : Option FileTree :=
  if (upTo p).any fun q => (t.read q).isSome then none else some ((upTo p).foldl mkdir t)

/-- `os.OpenFile` with the flags to create the file and to write it. -/
def openFile (t : FileTree) (p : Path) : Option FileTree :=
  if t.entry p.dir ≠ some .directory then none
  else
    match t.entry p with
    | some .directory => none
    | some (.file _) => some t
    | none => some (t.insert p (.file []))

/-- The content of an open file is replaced. -/
def write (t : FileTree) (p : Path) (content : Bytes) : FileTree := t.insert p (.file content)

/-- `os.Remove` removes a file or an empty directory. -/
def remove (t : FileTree) (p : Path) : Option FileTree :=
  if !p.named then none
  else
    match t.entry p with
    | none => none
    | some (.file _) => some (t.erase p)
    | some .directory =>
        if t.keys.any fun q => q ≠ p ∧ q.dir = p then none else some (t.erase p)

/-- `os.RemoveAll` removes what is at a path and below it; it refuses the path `.`, and a path
with a file on the way. -/
def removeAll (t : FileTree) (p : Path) : Option FileTree :=
  if p.stack = [] ∧ p.rooted = false then none
  else if (upTo p.dir).any fun q => (t.read q).isSome then none
  else
    some ((t.keys.filter fun q => q.rooted = p.rooted ∧ p.stack.isSuffixOf q.stack).foldl
      (fun t q => t.erase q) t)

/-- No file other than the one at the path has changed. -/
def Keeps (p : Path) (t t' : FileTree) : Prop := ∀ q, q ≠ p → t'.read q = t.read q

variable {t t' t'' : FileTree} {p q : Path}

theorem Keeps.refl (p : Path) (t : FileTree) : Keeps p t t := fun _ _ => rfl

theorem Keeps.trans (first : Keeps p t t') (second : Keeps p t' t'') : Keeps p t t'' :=
  fun q other => (second q other).trans (first q other)

theorem read_of_entry (same : t'.entry q = t.entry q) : t'.read q = t.read q := by
  rw [read, read, same]

theorem entry_insert_ne (other : q ≠ p) (e : Entry) : entry (t.insert p e) q = t.entry q := by
  rw [entry, entry, AList.lookup_insert_ne other]

theorem entry_insert_self (isNamed : p.named = true) (e : Entry) :
    entry (t.insert p e) p = some e := by
  rw [entry, if_pos isNamed, AList.lookup_insert]

theorem entry_erase_ne (other : q ≠ p) : entry (t.erase p) q = t.entry q := by
  rw [entry, entry, AList.lookup_erase_ne other]

theorem keeps_insert (p : Path) (t : FileTree) (e : Entry) : Keeps p t (t.insert p e) :=
  fun _ other => read_of_entry (entry_insert_ne other e)

theorem keeps_erase (p : Path) (t : FileTree) : Keeps p t (t.erase p) :=
  fun _ other => read_of_entry (entry_erase_ne other)

theorem read_erase_self (p : Path) (t : FileTree) : read (t.erase p) p = none := by
  unfold read entry
  rw [AList.lookup_erase]
  cases p.named with
  | false => rfl
  | true => rfl

theorem keeps_write (p : Path) (t : FileTree) (content : Bytes) : Keeps p t (t.write p content) :=
  keeps_insert p t (.file content)

theorem read_write_self (isNamed : p.named = true) (content : Bytes) :
    (t.write p content).read p = some content := by
  rw [read, write, entry_insert_self isNamed]

/-! ## Directories -/

/-- A new directory takes no file away. -/
theorem read_mkdir (t : FileTree) (p q : Path) : (t.mkdir p).read q = t.read q := by
  unfold mkdir
  split
  · rename_i missing
    by_cases same : q = p
    · subst same
      have isNamed : q.named = true := by
        by_contra unnamed
        rw [entry, if_neg unnamed] at missing
        cases missing
      rw [read, read, entry_insert_self isNamed, missing]
    · exact read_of_entry (entry_insert_ne same _)
  · rfl

theorem read_foldl_mkdir (t : FileTree) (dirs : List Path) (q : Path) :
    read (dirs.foldl mkdir t) q = t.read q := by
  induction dirs generalizing t with
  | nil => rfl
  | cons d rest ih => exact (ih (t.mkdir d)).trans (read_mkdir t d q)

theorem read_mkdirAll (made : t.mkdirAll p = some t') (q : Path) : t'.read q = t.read q := by
  unfold mkdirAll at made
  split at made
  · cases made
  · cases Option.some.inj made
    exact read_foldl_mkdir t _ q

theorem keeps_mkdirAll {dir : Path} (made : t.mkdirAll dir = some t') : Keeps p t t' :=
  fun q _ => read_mkdirAll made q

theorem mem_upTo : q ∈ upTo p ↔ q.rooted = p.rooted ∧ q.stack <:+ p.stack := by
  simp only [upTo, List.mem_map, List.mem_reverse, List.mem_tails]
  constructor
  · rintro ⟨stack, suffix, rfl⟩
    exact ⟨rfl, suffix⟩
  · rintro ⟨sameRoot, suffix⟩
    refine ⟨q.stack, suffix, ?_⟩
    rw [← sameRoot]

/-- What there is stays when a directory is made. -/
theorem entry_mkdir {e : Entry} (found : t.entry q = some e) (p : Path) :
    (t.mkdir p).entry q = some e := by
  unfold mkdir
  split
  · rename_i missing
    have other : q ≠ p := by
      rintro rfl
      rw [missing] at found
      cases found
    rw [entry_insert_ne other, found]
  · exact found

theorem entry_foldl_mkdir {e : Entry} (found : t.entry q = some e) (dirs : List Path) :
    entry (dirs.foldl mkdir t) q = some e := by
  induction dirs generalizing t with
  | nil => exact found
  | cons d rest ih => exact ih (entry_mkdir found d)

theorem entry_mkdirAll {e : Entry} (made : t.mkdirAll p = some t') (found : t.entry q = some e) :
    t'.entry q = some e := by
  unfold mkdirAll at made
  split at made
  · cases made
  · cases Option.some.inj made
    exact entry_foldl_mkdir found _

theorem entry_foldl_mkdir_ne (t : FileTree) {dirs : List Path} (other : q ∉ dirs) :
    entry (dirs.foldl mkdir t) q = t.entry q := by
  induction dirs generalizing t with
  | nil => rfl
  | cons d rest ih =>
      have notFirst : q ≠ d := fun same => other (same ▸ List.mem_cons_self)
      have notLater : q ∉ rest := fun later => other (List.mem_cons_of_mem _ later)
      rw [List.foldl_cons, ih _ notLater, mkdir]
      split
      · exact entry_insert_ne notFirst _
      · rfl

/-- Making directories creates nothing below them. -/
theorem entry_mkdirAll_ne (made : t.mkdirAll p = some t') (other : q ∉ upTo p) :
    t'.entry q = t.entry q := by
  unfold mkdirAll at made
  split at made
  · cases made
  · cases Option.some.inj made
    exact entry_foldl_mkdir_ne t other

theorem entry_mkdir_self (t : FileTree) (p : Path) : ∃ e, (t.mkdir p).entry p = some e := by
  cases found : t.entry p with
  | some e => exact ⟨e, entry_mkdir found p⟩
  | none =>
      have isNamed : p.named = true := by
        by_contra unnamed
        rw [entry, if_neg unnamed] at found
        cases found
      refine ⟨.directory, ?_⟩
      rw [mkdir, found]
      exact entry_insert_self isNamed _

theorem exists_foldl_mkdir (t : FileTree) {dirs : List Path} (member : q ∈ dirs) :
    ∃ e, entry (dirs.foldl mkdir t) q = some e := by
  induction dirs generalizing t with
  | nil => cases member
  | cons d rest ih =>
      rcases List.mem_cons.mp member with rfl | later
      · obtain ⟨e, made⟩ := entry_mkdir_self t q
        exact ⟨e, entry_foldl_mkdir made rest⟩
      · exact ih _ later

/-- The directory is there after it was made. -/
theorem directory_mkdirAll (made : t.mkdirAll p = some t') : t'.entry p = some .directory := by
  have same := read_mkdirAll made p
  have own : p ∈ upTo p := mem_upTo.mpr ⟨rfl, List.suffix_refl _⟩
  unfold mkdirAll at made
  split at made
  · cases made
  rename_i noFile
  cases Option.some.inj made
  obtain ⟨e, exists_entry⟩ := exists_foldl_mkdir t own
  rw [exists_entry]
  cases e with
  | directory => rfl
  | file content =>
      refine absurd (List.any_eq_true.mpr ⟨p, own, ?_⟩) noFile
      rw [← same, read, exists_entry]
      rfl

theorem mkdirAll_isSome_iff : (t.mkdirAll p).isSome = true ↔ ∀ q ∈ upTo p, t.read q = none := by
  unfold mkdirAll
  split
  · rename_i blocked
    obtain ⟨q, member, isFile⟩ := List.any_eq_true.mp blocked
    refine iff_of_false Bool.false_ne_true fun clear => ?_
    rw [clear q member] at isFile
    cases isFile
  · rename_i free
    refine iff_of_true rfl fun q member => ?_
    by_contra isFile
    exact free (List.any_eq_true.mpr ⟨q, member, Option.isSome_iff_ne_none.mpr isFile⟩)

/-- Making the directory of a path leaves what is at the path. -/
theorem entry_mkdirAll_dir (made : t.mkdirAll p.dir = some t') : t'.entry p = t.entry p := by
  by_cases isNamed : p.named = true
  · refine entry_mkdirAll_ne made ?_
    intro member
    have shorter := (mem_upTo.mp member).2.length_le
    unfold Path.named at isNamed
    cases stack : p.stack with
    | nil =>
        rw [stack] at isNamed
        cases isNamed
    | cons top rest =>
        have tooLong : (top :: rest).length ≤ rest.length := by
          rwa [Path.dir, stack] at shorter
        exact absurd tooLong (Nat.not_succ_le_self _)
  · rw [entry, entry, if_neg isNamed, if_neg isNamed]

/-! ## Files -/

theorem openFile_isSome_iff : (t.openFile p).isSome = true ↔
    t.entry p.dir = some .directory ∧ t.entry p ≠ some .directory := by
  unfold openFile
  split
  · rename_i noDir
    exact iff_of_false Bool.false_ne_true fun both => noDir both.1
  rename_i isDir
  have inDir : t.entry p.dir = some .directory := not_not.mp isDir
  split
  · rename_i found
    exact iff_of_false Bool.false_ne_true fun both => both.2 found
  · rename_i found
    exact iff_of_true rfl ⟨inDir, by simp [found]⟩
  · rename_i missing
    exact iff_of_true rfl ⟨inDir, by simp [missing]⟩

/-- An open file has the content it had, and none if it is new. -/
theorem read_openFile_self (opened : t.openFile p = some t') :
    t'.read p = some ((t.read p).getD []) := by
  unfold openFile at opened
  split at opened
  · cases opened
  split at opened
  · cases opened
  · rename_i found
    cases Option.some.inj opened
    rw [read, found]
    rfl
  · rename_i missing
    have isNamed : p.named = true := by
      by_contra unnamed
      rw [entry, if_neg unnamed] at missing
      cases missing
    cases Option.some.inj opened
    rw [read, entry_insert_self isNamed, read, missing]
    rfl

theorem keeps_openFile (opened : t.openFile p = some t') : Keeps p t t' := by
  unfold openFile at opened
  split at opened
  · cases opened
  split at opened
  · cases opened
  · cases Option.some.inj opened
    exact Keeps.refl p t
  · cases Option.some.inj opened
    exact keeps_insert p t _

/-- A file that is open for writing has a name. -/
theorem entry_openFile_ne (opened : t.openFile p = some t') (other : q ≠ p) :
    t'.entry q = t.entry q := by
  unfold openFile at opened
  split at opened
  · cases opened
  split at opened
  · cases opened
  · rw [Option.some.inj opened]
  · rw [← Option.some.inj opened]
    exact entry_insert_ne other _

theorem named_of_openFile (opened : t.openFile p = some t') : p.named = true := by
  by_contra unnamed
  have isDir : t.entry p = some .directory := by rw [entry, if_neg unnamed]
  rw [openFile, isDir] at opened
  split at opened
  · cases opened
  · cases opened

theorem keeps_remove (removed : t.remove p = some t') : Keeps p t t' := by
  unfold remove at removed
  split at removed
  · cases removed
  split at removed
  · cases removed
  · cases Option.some.inj removed
    exact keeps_erase p t
  · split at removed
    · cases removed
    · cases Option.some.inj removed
      exact keeps_erase p t

/-- A file that is removed is gone. -/
theorem read_remove_self (removed : t.remove p = some t') : t'.read p = none := by
  have erased : read (t.erase p) p = none := by
    rw [read, entry, AList.lookup_erase]
    split
    · rename_i found
      split at found
      · cases found
      · cases found
    · rfl
  unfold remove at removed
  split at removed
  · cases removed
  split at removed
  · cases removed
  · cases Option.some.inj removed
    exact erased
  · split at removed
    · cases removed
    · cases Option.some.inj removed
      exact erased

theorem read_foldl_erase (t : FileTree) {paths : List Path} (other : q ∉ paths) :
    read (paths.foldl (fun t p => t.erase p) t) q = t.read q := by
  induction paths generalizing t with
  | nil => rfl
  | cons p rest ih =>
      have notFirst : q ≠ p := fun same => other (same ▸ List.mem_cons_self)
      have notLater : q ∉ rest := fun later => other (List.mem_cons_of_mem _ later)
      exact (ih (t.erase p) notLater).trans (keeps_erase p t q notFirst)

/-- What is not at or below the path stays. -/
theorem read_removeAll (removed : t.removeAll p = some t')
    (outside : ¬(q.rooted = p.rooted ∧ p.stack <:+ q.stack)) : t'.read q = t.read q := by
  unfold removeAll at removed
  split at removed
  · cases removed
  split at removed
  · cases removed
  · cases Option.some.inj removed
    refine read_foldl_erase t ?_
    intro member
    obtain ⟨sameRoot, under⟩ := of_decide_eq_true (List.mem_filter.mp member).2
    exact outside ⟨sameRoot, List.isSuffixOf_iff_suffix.mp under⟩

theorem entry_of_read {content : Bytes} (found : t.read p = some content) :
    t.entry p = some (.file content) := by
  unfold read at found
  split at found
  · rename_i isFile
    rw [isFile, Option.some.inj found]
  · cases found

theorem named_of_read {content : Bytes} (found : t.read p = some content) : p.named = true := by
  by_contra unnamed
  have isDir := entry_of_read found
  rw [entry, if_neg unnamed] at isDir
  cases isDir

/-- A file can be removed. -/
theorem remove_file {content : Bytes} (found : t.read p = some content) :
    t.remove p = some (t.erase p) := by
  rw [remove, named_of_read found, entry_of_read found]
  rfl

/-- There is nothing to remove where there is neither a file nor a directory. -/
theorem remove_missing (noFile : t.read p = none) (noDirectory : t.entry p ≠ some .directory) :
    t.remove p = none := by
  unfold remove
  cases found : t.entry p with
  | none => simp
  | some e =>
      cases e with
      | directory => exact absurd found noDirectory
      | file content =>
          rw [read, found] at noFile
          cases noFile

/-! ## Files that do not stand in each other's way -/

/-- Paths that can all hold files at once: none is a directory above another. -/
structure Compatible (paths : Set Path) : Prop where
  named : ∀ p ∈ paths, p.named = true
  apart : ∀ p ∈ paths, ∀ q ∈ paths, q ∉ upTo p.dir

/-- No file stands where a directory is needed, and no directory where a file is. -/
structure Vacant (paths : Set Path) (t : FileTree) : Prop where
  above : ∀ p ∈ paths, ∀ q ∈ upTo p.dir, t.read q = none
  free : ∀ p ∈ paths, t.entry p ≠ some .directory

variable {paths : Set Path}

theorem read_empty (p : Path) : read ∅ p = none := by
  unfold read entry
  cases p.named with
  | false => rfl
  | true => rfl

theorem vacant_empty (compatible : Compatible paths) : Vacant paths ∅ where
  above := fun _ _ q _ => read_empty q
  free := by
    intro p member
    rw [entry, if_pos (compatible.named p member)]
    nofun

/-- Each of the files can be written, and the others can be written afterwards. -/
theorem vacant_write (vacant : Vacant paths t) (compatible : Compatible paths) (member : p ∈ paths)
    (content : Bytes) :
    ∃ made opened, t.mkdirAll p.dir = some made ∧ made.openFile p = some opened ∧
      Vacant paths (opened.write p content) := by
  obtain ⟨made, isMade⟩ := Option.isSome_iff_exists.mp
    (mkdirAll_isSome_iff.mpr (vacant.above p member))
  have isFree : made.entry p ≠ some .directory := by
    rw [entry_mkdirAll_dir isMade]
    exact vacant.free p member
  obtain ⟨opened, isOpened⟩ := Option.isSome_iff_exists.mp
    (openFile_isSome_iff.mpr ⟨directory_mkdirAll isMade, isFree⟩)
  refine ⟨made, opened, isMade, isOpened, ?_, ?_⟩
  · intro q member' dir isAbove
    have other : dir ≠ p := by
      rintro rfl
      exact compatible.apart q member' dir member isAbove
    rw [keeps_write p opened content dir other, keeps_openFile isOpened dir other,
      read_mkdirAll isMade]
    exact vacant.above q member' dir isAbove
  · intro q member'
    by_cases own : q = p
    · subst own
      rw [write, entry_insert_self (compatible.named q member)]
      nofun
    · rw [write, entry_insert_ne own]
      have sameOpened : opened.entry q = made.entry q := entry_openFile_ne isOpened own
      rw [sameOpened, entry_mkdirAll_ne isMade (compatible.apart p member q member')]
      exact vacant.free q member'

theorem vacant_erase (vacant : Vacant paths t) (compatible : Compatible paths)
    (member : p ∈ paths) : Vacant paths (t.erase p) := by
  constructor
  · intro q member' dir isAbove
    have other : dir ≠ p := by
      rintro rfl
      exact compatible.apart q member' dir member isAbove
    rw [keeps_erase p t dir other]
    exact vacant.above q member' dir isAbove
  · intro q member'
    by_cases own : q = p
    · subst own
      rw [entry, if_pos (compatible.named q member), AList.lookup_erase]
      nofun
    · rw [entry_erase_ne own]
      exact vacant.free q member'

end FileTree

end MiniCloud.Library
