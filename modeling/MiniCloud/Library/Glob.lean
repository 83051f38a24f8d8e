import Mathlib.Data.List.Basic
import Mathlib.Data.List.Infix

/-!
# Glob patterns

A pattern is a sequence of symbols in which each star stands for any sequence.  A
pattern with stars at its ends only asks for a beginning, an end or a part of the text.
-/

namespace MiniCloud.Library

/-- The text matches the pattern. -/
inductive Glob {Symbol : Type*} (star : Symbol) : List Symbol → List Symbol → Prop where
  | nil : Glob star [] []
  | skip (any : List Symbol) {pattern text : List Symbol} (rest : Glob star pattern text) :
      Glob star (star :: pattern) (any ++ text)
  | literal {c : Symbol} {pattern text : List Symbol} (plain : c ≠ star)
      (rest : Glob star pattern text) : Glob star (c :: pattern) (c :: text)

namespace Glob

variable {Symbol : Type*} {star : Symbol} {pattern text : List Symbol}

theorem nil_iff : Glob star [] text ↔ text = [] := by
  constructor
  · intro matched
    cases matched
    rfl
  · rintro rfl
    exact .nil

theorem star_iff :
    Glob star (star :: pattern) text ↔
      ∃ any rest, text = any ++ rest ∧ Glob star pattern rest := by
  constructor
  · intro matched
    cases matched with
    | skip any rest => exact ⟨any, _, rfl, rest⟩
    | literal plain rest => exact absurd rfl plain
  · rintro ⟨any, rest, rfl, matched⟩
    exact .skip any matched

/-- A beginning without a star is the beginning of the text. -/
theorem plain_append_iff {first : List Symbol} (plain : star ∉ first) :
    Glob star (first ++ pattern) text ↔ ∃ rest, text = first ++ rest ∧ Glob star pattern rest := by
  induction first generalizing text with
  | nil =>
      constructor
      · intro matched
        exact ⟨text, rfl, matched⟩
      · rintro ⟨rest, rfl, matched⟩
        exact matched
  | cons c others ih =>
      obtain ⟨different, plainOthers⟩ := not_or.mp (List.mem_cons.not.mp plain)
      constructor
      · intro matched
        rw [List.cons_append] at matched
        cases matched with
        | skip any rest => exact absurd rfl different
        | literal _ later =>
            obtain ⟨rest, rfl, matched⟩ := (ih plainOthers).mp later
            exact ⟨rest, rfl, matched⟩
      · rintro ⟨rest, rfl, matched⟩
        exact .literal (Ne.symm different) ((ih plainOthers).mpr ⟨rest, rfl, matched⟩)

theorem plain_iff (plain : star ∉ pattern) : Glob star pattern text ↔ text = pattern := by
  have whole : Glob star (pattern ++ []) text ↔ ∃ rest, text = pattern ++ rest ∧ Glob star [] rest :=
    plain_append_iff plain
  simp only [List.append_nil, nil_iff] at whole
  rw [whole]
  constructor
  · rintro ⟨rest, rfl, rfl⟩
    exact List.append_nil _
  · rintro rfl
    exact ⟨[], (List.append_nil _).symm, rfl⟩

theorem single_star (text : List Symbol) : Glob star [star] text := by
  have matched : Glob star [star] (text ++ []) := .skip text .nil
  rwa [List.append_nil] at matched

theorem star_last_iff (plain : star ∉ pattern) :
    Glob star (pattern ++ [star]) text ↔ pattern <+: text := by
  rw [plain_append_iff plain]
  constructor
  · rintro ⟨rest, rfl, _⟩
    exact List.prefix_append _ _
  · rintro ⟨rest, rfl⟩
    exact ⟨rest, rfl, single_star rest⟩

theorem star_first_iff (plain : star ∉ pattern) :
    Glob star (star :: pattern) text ↔ pattern <:+ text := by
  rw [star_iff]
  constructor
  · rintro ⟨any, rest, rfl, matched⟩
    rw [(plain_iff plain).mp matched]
    exact List.suffix_append _ _
  · rintro ⟨any, rfl⟩
    exact ⟨any, pattern, rfl, (plain_iff plain).mpr rfl⟩

theorem star_both_iff (plain : star ∉ pattern) :
    Glob star (star :: (pattern ++ [star])) text ↔ pattern <:+: text := by
  rw [star_iff]
  constructor
  · rintro ⟨any, rest, rfl, matched⟩
    obtain ⟨behind, rfl⟩ := (star_last_iff plain).mp matched
    exact ⟨any, behind, List.append_assoc ..⟩
  · rintro ⟨any, behind, rfl⟩
    exact ⟨any, pattern ++ behind, List.append_assoc .., (star_last_iff plain).mpr ⟨behind, rfl⟩⟩

end Glob

/-- Stars stand at the ends of the pattern only. -/
theorem ends_cases {Symbol : Type*} [DecidableEq Symbol] {star : Symbol} {pattern : List Symbol}
    (inner : star ∉ pattern.tail.dropLast) :
    ∃ middle, star ∉ middle ∧ (pattern = middle ∨ pattern = middle ++ [star] ∨
      pattern = star :: middle ∨ pattern = star :: (middle ++ [star])) := by
  cases pattern with
  | nil => exact ⟨[], List.not_mem_nil, Or.inl rfl⟩
  | cons first rest =>
      rw [List.tail_cons] at inner
      rcases List.eq_nil_or_concat rest with rfl | ⟨middle, last, rfl⟩
      · by_cases isStar : first = star
        · exact ⟨[], List.not_mem_nil, Or.inr (Or.inl (by rw [isStar]; rfl))⟩
        · exact ⟨[first], by simpa using Ne.symm isStar, Or.inl rfl⟩
      · rw [List.concat_eq_append, List.dropLast_concat] at inner
        rw [List.concat_eq_append]
        by_cases isFirst : first = star
        · subst isFirst
          by_cases isLast : last = first
          · exact ⟨middle, inner, by simp [isLast]⟩
          · exact ⟨middle ++ [last], by simp [inner, Ne.symm isLast], by simp⟩
        · by_cases isLast : last = star
          · exact ⟨first :: middle, by simp [inner, Ne.symm isFirst], by simp [isLast]⟩
          · exact ⟨first :: (middle ++ [last]),
              by simp [inner, Ne.symm isFirst, Ne.symm isLast], by simp⟩

end MiniCloud.Library
