import Mathlib.Data.List.Basic
import Mathlib.Tactic.Common

/-!
# Fields with separators between them

Three fields are joined with one separator between each two.  A joined text is read
back in one way only, as three fields of which the first two are not empty, exactly if
the separator occurs in the first field at most in front and in the second at most as
the whole of it; the last field has none.  A head with any number of fields is the same
text as another one exactly when both have the same pieces between separators.
-/

namespace MiniCloud.Library.Fields

variable {Symbol : Type*} {sep : Symbol} {a b c d : List Symbol}

def join (sep : Symbol) (first second third : List Symbol) : List Symbol :=
  first ++ sep :: (second ++ sep :: third)

/-- The first two fields leave no other place for the separators. -/
def Unambiguous (sep : Symbol) (first second : List Symbol) : Prop :=
  sep ∉ first.tail ∧ (sep ∈ second → second = [sep])

instance [DecidableEq Symbol] (sep : Symbol) (first second : List Symbol) :
    Decidable (Unambiguous sep first second) :=
  inferInstanceAs (Decidable (_ ∧ _))

/-- Two cuts of one text at a separator are the same, or one of them is further left. -/
theorem cut_cases (same : a ++ sep :: b = c ++ sep :: d) :
    (a = c ∧ b = d) ∨ (∃ m, c = a ++ sep :: m ∧ b = m ++ sep :: d) ∨
      ∃ m, a = c ++ sep :: m ∧ d = m ++ sep :: b := by
  rcases List.append_eq_append_iff.mp same with ⟨m, left, right⟩ | ⟨m, left, right⟩
  · cases m with
    | nil =>
        rw [List.append_nil] at left
        exact Or.inl ⟨left.symm, (List.cons.inj right).2⟩
    | cons x m =>
        obtain ⟨isSep, rest⟩ := List.cons.inj right
        exact Or.inr (Or.inl ⟨m, isSep ▸ left, rest⟩)
  · cases m with
    | nil =>
        rw [List.append_nil] at left
        exact Or.inl ⟨left, (List.cons.inj right).2.symm⟩
    | cons x m =>
        obtain ⟨isSep, rest⟩ := List.cons.inj right
        exact Or.inr (Or.inr ⟨m, isSep ▸ left, rest⟩)

/-- A cut in front of a field without separator is the only one behind its place. -/
theorem cut_last (same : a ++ sep :: b = c ++ sep :: d) (plain : sep ∉ d) :
    (a = c ∧ b = d) ∨ ∃ m, c = a ++ sep :: m ∧ b = m ++ sep :: d := by
  rcases cut_cases same with both | left | ⟨m, _, isLast⟩
  · exact Or.inl both
  · exact Or.inr left
  · rw [isLast] at plain
    exact absurd (List.mem_append_right _ List.mem_cons_self) plain

variable {first second third first' second' third' : List Symbol}

/-- Unambiguous fields are the only ones that are joined to their text. -/
theorem join_unique (clear : Unambiguous sep first second) (plain : sep ∉ third)
    (firstGiven : first' ≠ []) (secondGiven : second' ≠ [])
    (same : join sep first' second' third' = join sep first second third) :
    first' = first ∧ second' = second ∧ third' = third := by
  obtain ⟨inFirst, inSecond⟩ := clear
  rcases cut_cases same with ⟨sameFirst, rest⟩ | ⟨m, longer, _⟩ | ⟨m, _, rest⟩
  · rcases cut_last rest plain with ⟨sameSecond, sameThird⟩ | ⟨n, longer, _⟩
    · exact ⟨sameFirst, sameSecond, sameThird⟩
    · -- the second field would be cut at a separator within it
      have occurs : sep ∈ second := longer ▸ List.mem_append_right _ List.mem_cons_self
      rw [inSecond occurs] at longer
      cases second' with
      | nil => exact absurd rfl secondGiven
      | cons x rest => exact absurd (congrArg List.length longer) (by simp)
  · cases first' with
    | nil => exact absurd rfl firstGiven
    | cons x rest =>
        rw [longer] at inFirst
        exact absurd (List.mem_append_right _ List.mem_cons_self) inFirst
  · -- the first field of the other reading would go on behind the separator
    have joined : m ++ sep :: (second' ++ sep :: third') = second ++ sep :: third := rest.symm
    rcases cut_last joined plain with ⟨_, isThird⟩ | ⟨n, longer, isThird⟩
    · rw [← isThird] at plain
      exact absurd (List.mem_append_right _ List.mem_cons_self) plain
    · have occurs : sep ∈ second := longer ▸ List.mem_append_right _ List.mem_cons_self
      rw [inSecond occurs] at longer
      have empty : n = [] := by
        cases m with
        | nil => exact (List.cons.inj longer).2.symm
        | cons y rest => exact absurd (congrArg List.length longer) (by simp)
      rw [empty, List.nil_append] at isThird
      cases second' with
      | nil => exact absurd rfl secondGiven
      | cons y rest =>
          obtain ⟨_, isThird⟩ := List.cons.inj isThird
          rw [← isThird] at plain
          exact absurd (List.mem_append_right _ List.mem_cons_self) plain

/-- Ambiguous fields have a second reading. -/
theorem join_ambiguous (unclear : ¬Unambiguous sep first second) (firstGiven : first ≠ [])
    (secondGiven : second ≠ []) (thirdGiven : third ≠ []) :
    ∃ first' second' third', first' ≠ [] ∧ second' ≠ [] ∧ third' ≠ [] ∧
      join sep first' second' third' = join sep first second third ∧
        ¬(first' = first ∧ second' = second ∧ third' = third) := by
  by_cases inFirst : sep ∈ first.tail
  · cases first with
    | nil => exact absurd rfl firstGiven
    | cons x rest =>
        obtain ⟨before, after, isRest⟩ := List.append_of_mem inFirst
        change rest = before ++ sep :: after at isRest
        subst isRest
        refine ⟨x :: before, after ++ sep :: second, third, List.cons_ne_nil _ _, by simp,
          thirdGiven, by simp [join], ?_⟩
        rintro ⟨sameFirst, _, _⟩
        exact absurd (congrArg List.length sameFirst) (by simp)
  · have inSecond : sep ∈ second ∧ second ≠ [sep] := by
      by_contra none
      exact unclear ⟨inFirst, fun occurs => not_not.mp fun other => none ⟨occurs, other⟩⟩
    obtain ⟨occurs, notAlone⟩ := inSecond
    obtain ⟨before, after, isSecond⟩ := List.append_of_mem occurs
    subst isSecond
    cases before with
    | nil =>
        have afterGiven : after ≠ [] := by
          rintro rfl
          exact notAlone rfl
        refine ⟨first ++ [sep], after, third, by simp, afterGiven, thirdGiven, by simp [join], ?_⟩
        rintro ⟨sameFirst, _, _⟩
        exact absurd (congrArg List.length sameFirst) (by simp)
    | cons x rest =>
        refine ⟨first, x :: rest, after ++ sep :: third, firstGiven, List.cons_ne_nil _ _, by simp,
          by simp [join], ?_⟩
        rintro ⟨_, sameSecond, _⟩
        exact absurd (congrArg List.length sameSecond) (by simp)

/-! ## A head and any number of fields -/

/-- A cut behind a field without separator is the first one of the text. -/
theorem cut_first (same : a ++ sep :: b = c ++ sep :: d) (plain : sep ∉ a) (plain' : sep ∉ c) :
    a = c ∧ b = d := by
  rcases cut_cases same with both | ⟨m, longer, _⟩ | ⟨m, longer, _⟩
  · exact both
  · rw [longer] at plain'
    exact absurd (List.mem_append_right _ List.mem_cons_self) plain'
  · rw [longer] at plain
    exact absurd (List.mem_append_right _ List.mem_cons_self) plain

/-- A head, and fields each of which stands behind a separator. -/
def row (sep : Symbol) (head : List Symbol) (fields : List (List Symbol)) : List Symbol :=
  head ++ fields.flatMap fun field => sep :: field

theorem row_nil (sep : Symbol) (head : List Symbol) : row sep head [] = head :=
  List.append_nil head

theorem row_cons (sep : Symbol) (head field : List Symbol) (rest : List (List Symbol)) :
    row sep head (field :: rest) = head ++ sep :: row sep field rest := rfl

/-- Of the heads of one row the longer one goes on behind a separator. -/
theorem heads_of_row {head head' : List Symbol} {fields fields' : List (List Symbol)}
    (same : row sep head fields = row sep head' fields') :
    head = head' ∨ (∃ more, head' = head ++ sep :: more) ∨ ∃ more, head = head' ++ sep :: more := by
  cases fields with
  | nil =>
      rw [row_nil] at same
      cases fields' with
      | nil =>
          rw [row_nil] at same
          exact Or.inl same
      | cons field' rest' => exact Or.inr (Or.inr ⟨_, same⟩)
  | cons field rest =>
      cases fields' with
      | nil =>
          rw [row_nil] at same
          exact Or.inr (Or.inl ⟨_, same.symm⟩)
      | cons field' rest' =>
          rw [row_cons, row_cons] at same
          rcases cut_cases same with ⟨sameHead, _⟩ | ⟨m, longer, _⟩ | ⟨m, longer, _⟩
          · exact Or.inl sameHead
          · exact Or.inr (Or.inl ⟨m, longer⟩)
          · exact Or.inr (Or.inr ⟨m, longer⟩)

section Pieces

variable [DecidableEq Symbol]

/-- The parts of a row, each cut at every separator in it. -/
def pieces (sep : Symbol) (parts : List (List Symbol)) : List (List Symbol) :=
  parts.flatMap fun part => part.splitOn sep

theorem splitOn_row (head : List Symbol) (fields : List (List Symbol)) :
    (row sep head fields).splitOn sep = pieces sep (head :: fields) := by
  induction fields generalizing head with
  | nil => rw [row_nil, pieces, List.flatMap_singleton]
  | cons field rest ih =>
      rw [row_cons, List.splitOn_append_cons_self, ih]
      rfl

/-- Rows agree exactly when their parts have the same pieces. -/
theorem row_eq_iff {head head' : List Symbol} {fields fields' : List (List Symbol)} :
    row sep head fields = row sep head' fields' ↔
      pieces sep (head :: fields) = pieces sep (head' :: fields') := by
  rw [← splitOn_row, ← splitOn_row]
  constructor
  · intro same
    rw [same]
  · intro same
    have joined := congrArg [sep].intercalate same
    rwa [List.intercalate_splitOn, List.intercalate_splitOn] at joined

theorem pieces_of_plain {parts : List (List Symbol)} (plain : ∀ part ∈ parts, sep ∉ part) :
    pieces sep parts = parts := by
  have whole : pieces sep parts = parts.flatMap fun part => [part] :=
    List.flatMap_congr fun part member => List.splitOn_eq_singleton (plain part member)
  rw [whole, List.flatMap_singleton']

/-- A piece of a text has no separator and is no longer than the text. -/
theorem mem_splitOn {text piece : List Symbol} (member : piece ∈ text.splitOn sep) :
    sep ∉ piece ∧ piece.length ≤ text.length := by
  induction text generalizing piece with
  | nil =>
      obtain rfl := List.mem_singleton.mp member
      exact ⟨List.not_mem_nil, Nat.le_refl _⟩
  | cons c rest ih =>
      rw [List.splitOn_cons_eq_if_modifyHead] at member
      by_cases isSep : c = sep
      · rw [if_pos (beq_iff_eq.mpr isSep)] at member
        rcases List.mem_cons.mp member with rfl | later
        · exact ⟨List.not_mem_nil, Nat.zero_le _⟩
        · exact ⟨(ih later).1, Nat.le_succ_of_le (ih later).2⟩
      · rw [if_neg (mt beq_iff_eq.mp isSep)] at member
        cases split : rest.splitOn sep with
        | nil => exact absurd split (List.splitOn_ne_nil sep rest)
        | cons first others =>
            rw [split, List.modifyHead_cons] at member
            rcases List.mem_cons.mp member with rfl | later
            · obtain ⟨plain, short⟩ := ih (split ▸ List.mem_cons_self : first ∈ rest.splitOn sep)
              refine ⟨?_, Nat.succ_le_succ short⟩
              rintro (_ | ⟨_, inside⟩)
              · exact isSep rfl
              · exact plain inside
            · obtain ⟨plain, short⟩ :=
                ih (split ▸ List.mem_cons_of_mem first later : piece ∈ rest.splitOn sep)
              exact ⟨plain, Nat.le_succ_of_le short⟩

end Pieces

end MiniCloud.Library.Fields
