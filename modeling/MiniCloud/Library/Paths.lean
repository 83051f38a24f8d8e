import MiniCloud.Library.Text

/-!
# Lexical paths

A path is cleaned by its text alone: empty elements and `.` are dropped, `..` takes
back the element before it, and at the top it is dropped from a rooted path and kept
in a relative one.  A cleaned path is the stack of its elements, the last one on top.

A text that is appended to a path either descends from it, and then it adds the names
that it is cleaned to, or it climbs above it, and then the result has forgotten the
element that was on top.
-/

namespace MiniCloud.Library

open Text

structure Path where
  rooted : Bool
  stack : List String
  deriving DecidableEq, Repr

namespace Path

/-- Append an element to a cleaned path. -/
def push (rooted : Bool) (stack : List String) (element : String) : List String :=
  if element = "" ∨ element = "." then stack
  else if element = ".." then
    match stack with
    | [] => if rooted then [] else [".."]
    | top :: rest => if top = ".." then ".." :: top :: rest else rest
  else element :: stack

def walk (rooted : Bool) (stack elements : List String) : List String :=
  elements.foldl (push rooted) stack

def clean (s : String) : Path where
  rooted := hasPrefix s "/"
  stack := walk (hasPrefix s "/") [] (split s '/')

/-- The elements that are not empty, with slashes between them, cleaned. -/
def join (elements : List String) : Path :=
  clean (String.intercalate "/" (elements.filter fun e => e ≠ ""))

/-- The path of a text below a directory. -/
def down (dir : Path) (s : String) : Path where
  rooted := dir.rooted
  stack := walk dir.rooted dir.stack (split s '/')

/-- The directory of a path; that of a path without elements is the path itself. -/
def dir (p : Path) : Path where
  rooted := p.rooted
  stack := p.stack.tail

/-- The path ends in a name; the other paths are the root, the current directory and those
above it. -/
def named (p : Path) : Bool :=
  match p.stack with
  | [] => false
  | top :: _ => top ≠ ".."

/-- The path is strictly inside the directory. -/
def Below (p dir : Path) : Prop :=
  p.rooted = dir.rooted ∧ ∃ names, names ≠ [] ∧ ".." ∉ names ∧ p.stack = names ++ dir.stack

/-- The path is directly inside the directory. -/
def ChildOf (p dir : Path) : Prop :=
  p.rooted = dir.rooted ∧ ∃ name, name ≠ ".." ∧ p.stack = name :: dir.stack

/-- A name of one element, which cleaning leaves as it is. -/
structure Plain (name : String) : Prop where
  nonempty : name ≠ ""
  notDot : name ≠ "."
  notDots : name ≠ ".."
  noSlash : '/' ∉ name.toList

/-- What a text is cleaned to by itself. -/
def relative (s : String) : List String := walk false [] (split s '/')

/-- The text names something strictly inside wherever it is appended. -/
def Descends (s : String) : Prop := relative s ≠ [] ∧ ".." ∉ relative s

/-- The text names one element wherever it is appended. -/
def NamesOne (s : String) : Prop := ∃ name, name ≠ ".." ∧ relative s = [name]

theorem walk_append (rooted : Bool) (stack first second : List String) :
    walk rooted stack (first ++ second) = walk rooted (walk rooted stack first) second :=
  List.foldl_append

/-! ## Joining -/

theorem clean_append {s : String} (nonempty : s ≠ "") (t : String) :
    clean (s ++ "/" ++ t) = (clean s).down t := by
  have sameRoot : hasPrefix (s ++ "/" ++ t) "/" = hasPrefix s "/" := by
    rw [hasPrefix, hasPrefix, String.toList_append, String.toList_append, List.append_assoc]
    cases chars : s.toList with
    | nil => exact absurd (String.toList_eq_nil_iff.mp chars) nonempty
    | cons c rest => rfl
  have parts : split (s ++ "/" ++ t) '/' = split s '/' ++ split t '/' := split_append s t '/'
  rw [clean, sameRoot, parts, walk_append]
  rfl

theorem join_eq {elements : List String} (nonempty : ∀ e ∈ elements, e ≠ "") :
    join elements = clean (String.intercalate "/" elements) := by
  have kept : elements.filter (fun e => e ≠ "") = elements :=
    List.filter_eq_self.mpr fun e member => decide_eq_true (nonempty e member)
  rw [join, kept]

theorem join_two {s t : String} (first : s ≠ "") (second : t ≠ "") :
    join [s, t] = (clean s).down t := by
  have nonempty : ∀ e ∈ [s, t], e ≠ "" :=
    List.forall_mem_cons.mpr ⟨first, List.forall_mem_singleton.mpr second⟩
  rw [join_eq nonempty]
  exact clean_append first t

theorem join_three {s t u : String} (first : s ≠ "") (second : t ≠ "") (third : u ≠ "") :
    join [s, t, u] = ((clean s).down t).down u := by
  have nonempty : ∀ e ∈ [s, t, u], e ≠ "" :=
    List.forall_mem_cons.mpr
      ⟨first, List.forall_mem_cons.mpr ⟨second, List.forall_mem_singleton.mpr third⟩⟩
  have both : s ++ "/" ++ t ≠ "" := by
    intro empty
    have chars := congrArg String.toList empty
    rw [String.toList_append, String.toList_append] at chars
    have none := (List.append_eq_nil_iff.mp (List.append_eq_nil_iff.mp chars).1).1
    exact first (String.toList_eq_nil_iff.mp none)
  rw [join_eq nonempty, ← clean_append first]
  exact clean_append both u

/-! ## Plain names -/

theorem push_plain {name : String} (plain : Plain name) (rooted : Bool) (stack : List String) :
    push rooted stack name = name :: stack := by
  unfold push
  rw [if_neg (not_or.mpr ⟨plain.nonempty, plain.notDot⟩), if_neg plain.notDots]

theorem split_plain {s : String} (noSlash : '/' ∉ s.toList) : split s '/' = [s] := by
  have single : s.toList.splitOn '/' = [s.toList] := by
    refine List.splitOnP_eq_singleton ?_
    intro c member
    rw [beq_eq_false_iff_ne]
    rintro rfl
    exact noSlash member
  rw [split, single, List.map_singleton, String.ofList_toList]

theorem down_plain {name : String} (plain : Plain name) (p : Path) :
    p.down name = ⟨p.rooted, name :: p.stack⟩ := by
  rw [down, split_plain plain.noSlash]
  exact congrArg (Path.mk p.rooted) (push_plain plain _ _)

/-- Plain elements are all kept. -/
theorem walk_plain {elements : List String} (plain : ∀ e ∈ elements, Plain e) (rooted : Bool)
    (stack : List String) : walk rooted stack elements = elements.reverse ++ stack := by
  induction elements generalizing stack with
  | nil => rfl
  | cons e rest ih =>
      have first := push_plain (plain e List.mem_cons_self) rooted stack
      rw [walk, List.foldl_cons, first]
      refine (ih (fun e member => plain e (List.mem_cons_of_mem _ member)) (e :: stack)).trans ?_
      rw [List.reverse_cons, List.append_assoc, List.singleton_append]

/-! ## Climbing and descending -/

/-- Once a relative path has climbed, it stays so. -/
theorem dots_push {rooted : Bool} {stack : List String} (dots : ".." ∈ stack) (element : String) :
    ".." ∈ push rooted stack element := by
  unfold push
  split
  · exact dots
  split
  · cases stack with
    | nil => cases dots
    | cons top rest =>
        change ".." ∈ if top = ".." then ".." :: top :: rest else rest
        split
        · exact List.mem_cons_self
        · rename_i other
          rcases List.mem_cons.mp dots with isTop | below
          · exact absurd isTop.symm other
          · exact below
  · exact List.mem_cons_of_mem _ dots

theorem dots_walk {rooted : Bool} {stack : List String} (dots : ".." ∈ stack)
    (elements : List String) : ".." ∈ walk rooted stack elements := by
  induction elements generalizing stack with
  | nil => exact dots
  | cons element rest ih => exact ih (dots_push dots element)

/-- An element that does not climb does the same over every base. -/
theorem push_over {stack : List String} {element : String}
    (stays : ".." ∉ push false stack element) (rooted : Bool) (base : List String) :
    push rooted (stack ++ base) element = push false stack element ++ base := by
  unfold push at stays ⊢
  split
  · rfl
  rename_i kept
  rw [if_neg kept] at stays
  split
  · rename_i isDots
    rw [if_pos isDots] at stays
    cases stack with
    | nil => exact absurd List.mem_cons_self stays
    | cons top rest =>
        change ".." ∉ (if top = ".." then ".." :: top :: rest else rest) at stays
        change (if top = ".." then _ else rest ++ base) =
          (if top = ".." then ".." :: top :: rest else rest) ++ base
        split
        · rename_i atDots
          rw [if_pos atDots] at stays
          exact absurd List.mem_cons_self stays
        · rfl
  · rfl

/-- Elements that do not climb add the same names to every base. -/
theorem walk_over {stack elements : List String} (stays : ".." ∉ walk false stack elements)
    (rooted : Bool) (base : List String) :
    walk rooted (stack ++ base) elements = walk false stack elements ++ base := by
  induction elements generalizing stack with
  | nil => rfl
  | cons element rest ih =>
      have first : ".." ∉ push false stack element := fun dots => stays (dots_walk dots rest)
      rw [walk, List.foldl_cons, push_over first]
      exact ih stays

/-- Elements that climb above the first name of a rooted path forget it. -/
theorem walk_forgets {stack elements : List String} (stays : ".." ∉ stack)
    (climbs : ".." ∈ walk false stack elements) (name name' : String) (plain : name ≠ "..")
    (plain' : name' ≠ "..") :
    walk true (stack ++ [name]) elements = walk true (stack ++ [name']) elements := by
  induction elements generalizing stack with
  | nil => exact absurd climbs stays
  | cons element rest ih =>
      rw [walk, walk, List.foldl_cons, List.foldl_cons]
      by_cases first : ".." ∈ push false stack element
      · -- only `..` at the top of the path climbs
        have isDots : element = ".." := by
          by_contra other
          unfold push at first
          rw [if_neg other] at first
          split at first
          · exact stays first
          · rcases List.mem_cons.mp first with isElement | below
            · exact other isElement.symm
            · exact stays below
        subst isDots
        cases stack with
        | nil =>
            have dropped (n : String) (notDots : n ≠ "..") : push true ([] ++ [n]) ".." = [] := by
              change (if n = ".." then _ else ([] : List String)) = []
              rw [if_neg notDots]
            rw [dropped name plain, dropped name' plain']
        | cons top below =>
            have notDots : top ≠ ".." := fun isDots => stays (isDots ▸ List.mem_cons_self)
            have popped : push false (top :: below) ".." = below := by
              change (if top = ".." then _ else below) = below
              rw [if_neg notDots]
            rw [popped] at first
            exact absurd (List.mem_cons_of_mem _ first) stays
      · rw [push_over first, push_over first]
        exact ih first climbs

theorem down_descends {s : String} (descends : Descends s) (dir : Path) : (dir.down s).Below dir :=
  ⟨rfl, relative s, descends.1, descends.2, walk_over descends.2 dir.rooted dir.stack⟩

theorem down_namesOne {s : String} (one : NamesOne s) (dir : Path) : (dir.down s).ChildOf dir := by
  obtain ⟨name, notDots, isName⟩ := one
  have stays : ".." ∉ relative s := by
    rw [isName, List.mem_singleton]
    exact Ne.symm notDots
  refine ⟨rfl, name, notDots, ?_⟩
  have added : (dir.down s).stack = relative s ++ dir.stack := walk_over stays _ _
  rw [added, isName]
  rfl

/-- Two rooted directories that differ in their name tell whether a text climbs. -/
theorem climbs_same {s : String} (climbs : ".." ∈ relative s) :
    (down ⟨true, ["a"]⟩ s).stack = (down ⟨true, ["b"]⟩ s).stack :=
  walk_forgets List.not_mem_nil climbs "a" "b" (by decide) (by decide)

theorem descends_of_below {s : String}
    (below : ∀ name, name = "a" ∨ name = "b" → (down ⟨true, [name]⟩ s).Below ⟨true, [name]⟩) :
    Descends s := by
  obtain ⟨_, first, nonempty, _, isFirst⟩ := below "a" (Or.inl rfl)
  obtain ⟨_, second, _, _, isSecond⟩ := below "b" (Or.inr rfl)
  have stays : ".." ∉ relative s := by
    intro climbs
    have same := isFirst.symm.trans ((climbs_same climbs).trans isSecond)
    have tops := (List.append_inj' same rfl).2
    exact absurd (List.cons.inj tops).1 (by decide)
  refine ⟨?_, stays⟩
  intro nothing
  have added : (down ⟨true, ["a"]⟩ s).stack = relative s ++ ["a"] := walk_over stays _ _
  rw [added] at isFirst
  exact nonempty ((List.append_cancel_right isFirst).symm.trans nothing)

theorem namesOne_of_child {s : String}
    (child : ∀ name, name = "a" ∨ name = "b" → (down ⟨true, [name]⟩ s).ChildOf ⟨true, [name]⟩) :
    NamesOne s := by
  obtain ⟨_, first, notDots, isFirst⟩ := child "a" (Or.inl rfl)
  obtain ⟨_, second, _, isSecond⟩ := child "b" (Or.inr rfl)
  have stays : ".." ∉ relative s := by
    intro climbs
    have same := isFirst.symm.trans ((climbs_same climbs).trans isSecond)
    exact absurd (List.cons.inj (List.cons.inj same).2).1 (by decide)
  have added : (down ⟨true, ["a"]⟩ s).stack = relative s ++ ["a"] := walk_over stays _ _
  have same : relative s ++ ["a"] = [first] ++ ["a"] := added.symm.trans isFirst
  exact ⟨first, notDots, List.append_cancel_right same⟩

end Path

end MiniCloud.Library
