import MiniCloud.Identity.Permissions
import MiniCloud.Library.Glob

/-!
# What the patterns of a rule match

The two parts of a rule are meant as globs, in which each star stands for any text and
of which the empty one matches everything.  A pattern with a star at one end only is
matched so.  A pattern with a star at both ends is taken for one with a star at its end:
its first star is then an ordinary character.
-/

namespace MiniCloud.Identity

open MiniCloud.Library
open MiniCloud.Library.Text

/-- Stars are the first or the last character of the pattern. -/
def EndStars (pattern : String) : Prop := '*' ∉ pattern.toList.tail.dropLast

instance (pattern : String) : Decidable (EndStars pattern) :=
  inferInstanceAs (Decidable (¬_))

/-- The value matches the pattern as a glob. -/
def Means (pattern value : String) : Prop :=
  pattern = "" ∨ Glob '*' pattern.toList value.toList

/-- The pattern has a star at both ends, and the value contains what stands between them
without having it at its beginning, behind a star. -/
def Missed (pattern value : String) : Prop :=
  ∃ middle, pattern.toList = '*' :: (middle ++ ['*']) ∧ middle <:+: value.toList ∧
    ¬('*' :: middle) <+: value.toList

/-- The rule is two patterns with a colon between them, whose parts match. -/
def RuleOf (matching : String → String → Prop) (rule verb resource : String) : Prop :=
  ∃ verbs resources, rule = verbs ++ ":" ++ resources ∧ ':' ∉ verbs.toList ∧
    matching verbs verb ∧ matching resources resource

/-- Stars stand at the ends of the two patterns only. -/
def EndStarRule (rule : String) : Prop :=
  ∀ verbs resources, rule = verbs ++ ":" ++ resources → ':' ∉ verbs.toList →
    EndStars verbs ∧ EndStars resources

/-- The glob matches the value and is not misread. -/
def Caught (pattern value : String) : Prop := Means pattern value ∧ ¬Missed pattern value

/-! ## The patterns by their stars -/

theorem toList_star_last (front : String) : (front ++ "*").toList = front.toList ++ ['*'] :=
  String.toList_append

theorem toList_star_first (back : String) : ("*" ++ back).toList = '*' :: back.toList :=
  String.toList_append

theorem toList_star_both (middle : String) :
    ("*" ++ middle ++ "*").toList = '*' :: (middle.toList ++ ['*']) := by
  rw [toList_star_last, toList_star_first]
  rfl

theorem star_last_ne_empty (front : String) : front ++ "*" ≠ "" := by
  rw [Ne, ← String.toList_inj, toList_star_last]
  exact List.append_ne_nil_of_right_ne_nil _ (List.cons_ne_nil _ _)

theorem star_first_ne_empty (back : String) : "*" ++ back ≠ "" := by
  rw [Ne, ← String.toList_inj, toList_star_first]
  exact List.cons_ne_nil _ _

theorem endStars_cases {pattern : String} (ends : EndStars pattern) :
    ∃ middle : String, '*' ∉ middle.toList ∧ (pattern = middle ∨ pattern = middle ++ "*" ∨
      pattern = "*" ++ middle ∨ pattern = "*" ++ middle ++ "*") := by
  obtain ⟨middle, plain, shape⟩ := ends_cases ends
  refine ⟨String.ofList middle, by rwa [String.toList_ofList], ?_⟩
  simp only [← String.toList_inj, String.toList_append, String.toList_ofList]
  exact shape

theorem hasSuffix_star {text : String} (plain : '*' ∉ text.toList) : hasSuffix text "*" = false := by
  rw [Bool.eq_false_iff]
  intro has
  have ending : ['*'] <:+ text.toList := List.isSuffixOf_iff_suffix.mp has
  exact plain (ending.subset List.mem_cons_self)

theorem hasPrefix_star {text : String} (plain : '*' ∉ text.toList) : hasPrefix text "*" = false := by
  rw [Bool.eq_false_iff]
  intro has
  have beginning : ['*'] <+: text.toList := List.isPrefixOf_iff_prefix.mp has
  exact plain (beginning.subset List.mem_cons_self)

theorem matchPart_star_last (front value : String) :
    matchPart (front ++ "*") value = hasPrefix value front := by
  by_cases empty : front = ""
  · subst empty
    rfl
  have notStar : front ++ "*" ≠ "*" := by
    rw [Ne, ← String.toList_inj, toList_star_last]
    intro same
    exact empty (String.toList_eq_nil_iff.mp (List.append_left_eq_self.mp same))
  have ending : hasSuffix (front ++ "*") "*" = true := by
    rw [hasSuffix, List.isSuffixOf_iff_suffix, toList_star_last]
    exact List.suffix_append _ _
  have without : dropLast (front ++ "*") = front := by
    rw [dropLast, toList_star_last, List.dropLast_concat, String.ofList_toList]
  rw [matchPart, if_neg (not_or.mpr ⟨star_last_ne_empty front, notStar⟩), if_pos ending, without]

theorem matchPart_star_first {back : String} (plain : '*' ∉ back.toList) (value : String) :
    matchPart ("*" ++ back) value = hasSuffix value back := by
  by_cases empty : back = ""
  · subst empty
    exact (List.isSuffixOf_iff_suffix.mpr (List.nil_suffix)).symm
  have notStar : "*" ++ back ≠ "*" := by
    rw [Ne, ← String.toList_inj, toList_star_first]
    intro same
    exact empty (String.toList_eq_nil_iff.mp (List.cons.inj same).2)
  have noSuffix : hasSuffix ("*" ++ back) "*" = false := by
    rw [Bool.eq_false_iff]
    intro has
    have ending : ['*'] <:+ ("*" ++ back).toList := List.isSuffixOf_iff_suffix.mp has
    rw [toList_star_first, List.suffix_cons_iff] at ending
    rcases ending with whole | ending
    · exact empty (String.toList_eq_nil_iff.mp (List.cons.inj whole).2.symm)
    · exact plain (ending.subset List.mem_cons_self)
  have beginning : hasPrefix ("*" ++ back) "*" = true := hasPrefix_iff.mpr ⟨back, rfl⟩
  have without : dropFirst ("*" ++ back) = back := by
    rw [dropFirst, toList_star_first, List.tail_cons, String.ofList_toList]
  rw [matchPart, if_neg (not_or.mpr ⟨star_first_ne_empty back, notStar⟩), noSuffix,
    if_neg Bool.false_ne_true, if_pos beginning, without]

/-! ## What the patterns mean -/

theorem means_plain_iff {middle value : String} (given : middle ≠ "") (plain : '*' ∉ middle.toList) :
    Means middle value ↔ middle = value := by
  rw [Means, or_iff_right given, Glob.plain_iff plain, String.toList_inj]
  exact eq_comm

theorem means_last_iff {front value : String} (plain : '*' ∉ front.toList) :
    Means (front ++ "*") value ↔ hasPrefix value front = true := by
  rw [Means, or_iff_right (star_last_ne_empty front), toList_star_last,
    Glob.star_last_iff plain, hasPrefix, List.isPrefixOf_iff_prefix]

theorem means_first_iff {back value : String} (plain : '*' ∉ back.toList) :
    Means ("*" ++ back) value ↔ hasSuffix value back = true := by
  rw [Means, or_iff_right (star_first_ne_empty back), toList_star_first,
    Glob.star_first_iff plain, hasSuffix, List.isSuffixOf_iff_suffix]

theorem means_both_iff {middle value : String} (plain : '*' ∉ middle.toList) :
    Means ("*" ++ middle ++ "*") value ↔ middle.toList <:+: value.toList := by
  rw [Means, or_iff_right (star_last_ne_empty _), toList_star_both, Glob.star_both_iff plain]

theorem missed_both_iff {middle value : String} :
    Missed ("*" ++ middle ++ "*") value ↔
      middle.toList <:+: value.toList ∧ hasPrefix value ("*" ++ middle) = false := by
  rw [Bool.eq_false_iff, hasPrefix, Ne, List.isPrefixOf_iff_prefix, toList_star_first]
  constructor
  · rintro ⟨other, same, inside, notFirst⟩
    rw [toList_star_both] at same
    obtain rfl : middle.toList = other := List.append_cancel_right (List.cons.inj same).2
    exact ⟨inside, notFirst⟩
  · rintro ⟨inside, notFirst⟩
    exact ⟨middle.toList, toList_star_both middle, inside, notFirst⟩

/-- Only a pattern with a star at both ends misses a value. -/
theorem not_missed {pattern value : String}
    (different : ∀ middle, pattern.toList ≠ '*' :: (middle ++ ['*'])) : ¬Missed pattern value := by
  rintro ⟨middle, shape, _⟩
  exact different middle shape

/-! ## The matcher and the globs -/

/-- The matcher accepts the values that match the glob and are not missed. -/
theorem matchPart_iff {pattern value : String} (ends : EndStars pattern) :
    matchPart pattern value = true ↔ Caught pattern value := by
  rw [Caught]
  obtain ⟨middle, plain, rfl | rfl | rfl | rfl⟩ := endStars_cases ends
  · have caught : ¬Missed pattern value := by
      refine not_missed fun middle shape => plain ?_
      rw [shape]
      exact List.mem_cons_self
    rw [and_iff_left caught]
    by_cases given : pattern = ""
    · subst given
      exact iff_of_true rfl (Or.inl rfl)
    · rw [matchPart_plain given (hasSuffix_star plain) (hasPrefix_star plain),
        means_plain_iff given plain]
  · have caught : ¬Missed (middle ++ "*") value := by
      refine not_missed fun inner shape => plain ?_
      rw [toList_star_last] at shape
      have front : middle.toList = '*' :: inner :=
        List.append_cancel_right (shape.trans (List.cons_append ..).symm)
      rw [front]
      exact List.mem_cons_self
    rw [and_iff_left caught, matchPart_star_last, means_last_iff plain]
  · have caught : ¬Missed ("*" ++ middle) value := by
      refine not_missed fun inner shape => plain ?_
      rw [toList_star_first] at shape
      have back : middle.toList = inner ++ ['*'] := (List.cons.inj shape).2
      rw [back]
      exact List.mem_append_right _ List.mem_cons_self
    rw [and_iff_left caught, matchPart_star_first plain, means_first_iff plain]
  · rw [matchPart_star_last, means_both_iff plain, missed_both_iff, not_and, Bool.not_eq_false]
    constructor
    · intro begins
      have inside : middle.toList <:+: value.toList := by
        obtain ⟨rest, rfl⟩ := hasPrefix_iff.mp begins
        refine ⟨['*'], rest.toList, ?_⟩
        rw [String.toList_append, toList_star_first]
        rfl
      exact ⟨inside, fun _ => begins⟩
    · rintro ⟨inside, begins⟩
      exact begins inside

theorem means_of_missed {pattern value : String} (ends : EndStars pattern)
    (missed : Missed pattern value) : Means pattern value := by
  obtain ⟨middle, shape, inside, _⟩ := missed
  have plain : '*' ∉ middle := by
    rwa [EndStars, shape, List.tail_cons, List.dropLast_concat] at ends
  right
  rw [shape]
  exact (Glob.star_both_iff plain).mpr inside

/-- A pattern is read as the glob for every value unless it has a star at both ends. -/
theorem matchPart_means_iff {pattern : String} (ends : EndStars pattern) :
    (∀ value, matchPart pattern value = true ↔ Means pattern value) ↔
      ∀ middle, pattern ≠ "*" ++ middle ++ "*" := by
  constructor
  · rintro agrees middle rfl
    have plain : '*' ∉ middle.toList := by
      rwa [EndStars, toList_star_both, List.tail_cons, List.dropLast_concat] at ends
    -- what stands between the stars is matched by the glob and has no star in front
    have notFirst : hasPrefix middle ("*" ++ middle) = false := by
      rw [Bool.eq_false_iff]
      intro begins
      obtain ⟨rest, same⟩ := hasPrefix_iff.mp begins
      refine plain (same ▸ ?_)
      rw [String.toList_append, toList_star_first]
      exact List.mem_cons_self
    have missed := missed_both_iff.mpr ⟨List.infix_refl middle.toList, notFirst⟩
    have accepted := (agrees middle).mpr (means_of_missed ends missed)
    exact ((matchPart_iff ends).mp accepted).2 missed
  · intro oneSided value
    have caught : ¬Missed pattern value := by
      refine not_missed fun middle shape => oneSided (String.ofList middle) ?_
      rw [← String.toList_inj, toList_star_both, String.toList_ofList, shape]
    rw [matchPart_iff ends, Caught, and_iff_left caught]

/-! ## Rules -/

theorem matchRule_iff {rule verb resource : String} :
    matchRule rule verb resource = true ↔
      RuleOf (fun pattern value => matchPart pattern value = true) rule verb resource := by
  constructor
  · intro matched
    cases parts : cut rule ':' with
    | none =>
        rw [matchRule, parts] at matched
        cases matched
    | some pair =>
        obtain ⟨verbs, resources⟩ := pair
        obtain ⟨whole, plain⟩ := cut_eq_some parts
        rw [matchRule_of_cut parts, Bool.and_eq_true] at matched
        exact ⟨verbs, resources, whole, plain, matched⟩
  · rintro ⟨verbs, resources, rfl, plain, matched⟩
    have parts : cut (verbs ++ ":" ++ resources) ':' = some (verbs, resources) :=
      cut_append plain resources
    rw [matchRule_of_cut parts, Bool.and_eq_true]
    exact matched

theorem endStarRule_of_cut {rule verbs resources : String}
    (parts : cut rule ':' = some (verbs, resources)) (verbEnds : EndStars verbs)
    (resourceEnds : EndStars resources) : EndStarRule rule := by
  rintro verbs' resources' rfl plain
  have same := (cut_append plain resources').symm.trans parts
  obtain ⟨rfl, rfl⟩ := Prod.mk.inj (Option.some.inj same)
  exact ⟨verbEnds, resourceEnds⟩

theorem hasPermission_iff {rules : List String} {verb resource : String}
    (ends : ∀ rule ∈ rules, EndStarRule rule) :
    hasPermission rules verb resource = true ↔ ∃ rule ∈ rules, RuleOf Caught rule verb resource := by
  rw [hasPermission, List.any_eq_true]
  refine exists_congr fun rule => and_congr_right fun listed => ?_
  rw [matchRule_iff]
  refine exists_congr fun verbs => exists_congr fun resources => and_congr_right fun whole =>
    and_congr_right fun plain => ?_
  obtain ⟨verbEnds, resourceEnds⟩ := ends rule listed verbs resources whole plain
  exact and_congr (matchPart_iff verbEnds) (matchPart_iff resourceEnds)

theorem RuleOf.mono {matching other : String → String → Prop} {rule verb resource : String}
    (weaker : ∀ pattern value, matching pattern value → other pattern value)
    (holds : RuleOf matching rule verb resource) : RuleOf other rule verb resource := by
  obtain ⟨verbs, resources, whole, plain, verbMatches, resourceMatches⟩ := holds
  exact ⟨verbs, resources, whole, plain, weaker _ _ verbMatches, weaker _ _ resourceMatches⟩

/-- Patterns and permissions are those of the globs as long as no glob is missed. -/
theorem permission_globs_iff {pattern value verb resource : String} {rules : List String}
    (ends : EndStars pattern) (ruleEnds : ∀ rule ∈ rules, EndStarRule rule) :
    ((matchPart pattern value = true ↔ Means pattern value) ↔ ¬Missed pattern value) ∧
      ((hasPermission rules verb resource = true ↔
          ∃ rule ∈ rules, RuleOf Means rule verb resource) ↔
        ((∃ rule ∈ rules, RuleOf Means rule verb resource) →
          ∃ rule ∈ rules, RuleOf Caught rule verb resource)) := by
  constructor
  · rw [matchPart_iff ends, Caught]
    constructor
    · intro agrees missed
      exact (agrees.mpr (means_of_missed ends missed)).2 missed
    · intro caught
      exact and_iff_left caught
  · rw [hasPermission_iff ruleEnds]
    constructor
    · intro agrees
      exact agrees.mpr
    · intro caught
      refine ⟨?_, caught⟩
      rintro ⟨rule, listed, holds⟩
      exact ⟨rule, listed, holds.mono fun _ _ => And.left⟩

theorem permission_globs_production :
    ((matchPart "prod-*" "prod-eu" = true ↔ Means "prod-*" "prod-eu") ↔
        ¬Missed "prod-*" "prod-eu") ∧
      ((hasPermission ["get:*", "post:prod-*"] "post" "prod-eu" = true ↔
          ∃ rule ∈ ["get:*", "post:prod-*"], RuleOf Means rule "post" "prod-eu") ↔
        ((∃ rule ∈ ["get:*", "post:prod-*"], RuleOf Means rule "post" "prod-eu") →
          ∃ rule ∈ ["get:*", "post:prod-*"], RuleOf Caught rule "post" "prod-eu")) := by
  refine permission_globs_iff (by decide) ?_
  intro rule listed
  rcases List.mem_pair.mp listed with rfl | rfl
  · exact endStarRule_of_cut (by decide : cut "get:*" ':' = some ("get", "*")) (by decide) (by decide)
  · exact endStarRule_of_cut (by decide : cut "post:prod-*" ':' = some ("post", "prod-*"))
      (by decide) (by decide)

/-- A rule for every resource whose name has `od` in it does not let anyone at the nodes. -/
theorem two_stars_miss :
    EndStars "*od*" ∧ Means "*od*" "nodes" ∧ matchPart "*od*" "nodes" = false ∧
      EndStarRule "get:*od*" ∧ RuleOf Means "get:*od*" "get" "nodes" ∧
        hasPermission ["get:*od*"] "get" "nodes" = false := by
  have plain : '*' ∉ "od".toList := by decide
  have inside : "od".toList <:+: "nodes".toList := ⟨"n".toList, "es".toList, rfl⟩
  have resource : Means "*od*" "nodes" := (means_both_iff plain).mpr inside
  have verb : Means "get" "get" := (means_plain_iff (by decide) (by decide)).mpr rfl
  have parts : cut "get:*od*" ':' = some ("get", "*od*") := by decide
  exact ⟨by decide, resource, by decide, endStarRule_of_cut parts (by decide) (by decide),
    ⟨"get", "*od*", rfl, by decide, verb, resource⟩, by decide⟩

end MiniCloud.Identity
