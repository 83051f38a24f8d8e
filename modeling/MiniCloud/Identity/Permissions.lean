import MiniCloud.Library.Text

/-!
# Roles and permissions

A rule is a text `verb:resource`, in which each part may have a star at one end.
Users are administrators, who may do everything, or viewers.
-/

namespace MiniCloud.Identity

open MiniCloud.Library.Text

def matchPart (pattern value : String) : Bool :=
  if pattern = "" ∨ pattern = "*" then true
  else if hasSuffix pattern "*" then hasPrefix value (dropLast pattern)
  else if hasPrefix pattern "*" then hasSuffix value (dropFirst pattern)
  else pattern = value

def matchRule (rule verb resource : String) : Bool :=
  match cut rule ':' with
  | none => false
  | some (verbs, resources) =>
      if !matchPart verbs verb then false
      else if !matchPart resources resource then false
      else true

def hasPermission (rules : List String) (verb resource : String) : Bool :=
  rules.any fun rule => matchRule rule verb resource

inductive Role where
  | admin
  | editor
  | viewer
  | operator
  deriving DecidableEq, Repr

def builtinRoles : Role → List String
  | .admin => ["*:*"]
  | .editor => ["*:*"]
  | .viewer => ["get:*", "list:*"]
  | .operator => ["get:nodes", "list:nodes", "post:nodes", "get:workloads", "list:workloads",
      "get:metrics", "get:alerts", "list:alerts"]

/-- A pattern without a star is its only value. -/
theorem matchPart_plain {pattern value : String} (nonempty : pattern ≠ "")
    (noSuffix : hasSuffix pattern "*" = false) (noPrefix : hasPrefix pattern "*" = false) :
    matchPart pattern value = true ↔ pattern = value := by
  have notStar : pattern ≠ "*" := by
    rintro rfl
    cases noSuffix
  rw [matchPart, if_neg (not_or.mpr ⟨nonempty, notStar⟩), noSuffix, noPrefix]
  exact decide_eq_true_iff

theorem matchRule_of_cut {rule verbs resources verb resource : String}
    (parts : cut rule ':' = some (verbs, resources)) :
    matchRule rule verb resource = (matchPart verbs verb && matchPart resources resource) := by
  simp only [matchRule, parts]
  cases matchPart verbs verb with
  | false => rfl
  | true =>
      cases matchPart resources resource with
      | false => rfl
      | true => rfl

/-- A viewer may get and list everything, and nothing else. -/
theorem hasPermission_viewer (verb resource : String) :
    hasPermission (builtinRoles .viewer) verb resource = true ↔ verb = "get" ∨ verb = "list" := by
  have anything : matchPart "*" resource = true := rfl
  have gets : matchRule "get:*" verb resource = true ↔ verb = "get" := by
    have parts : cut "get:*" ':' = some ("get", "*") := by decide
    rw [matchRule_of_cut parts, anything, Bool.and_true,
      matchPart_plain (by decide) (by decide) (by decide)]
    exact eq_comm
  have lists : matchRule "list:*" verb resource = true ↔ verb = "list" := by
    have parts : cut "list:*" ':' = some ("list", "*") := by decide
    rw [matchRule_of_cut parts, anything, Bool.and_true,
      matchPart_plain (by decide) (by decide) (by decide)]
    exact eq_comm
  simp only [hasPermission, builtinRoles, List.any_cons, List.any_nil, Bool.or_false, Bool.or_eq_true,
    gets, lists]

end MiniCloud.Identity
