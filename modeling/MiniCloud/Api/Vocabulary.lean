import MiniCloud.Api.Server

/-!
# The resource that a permission is asked for

A rule names a verb and a resource.  The server asks for the verb of the method and for
the resource of the path, and takes the resource from the path in two ways: a path of
three segments or more loses its `/v1/`, and a shorter one is left whole.  So a rule
that names the resource of a routed path grants it only below a bucket.
-/

namespace MiniCloud.Api

open MiniCloud.Identity
open MiniCloud.Library.Text

/-- The patterns that `Routes` registers. -/
def patterns : List String :=
  ["/v1/login", "/v1/users", "/v1/apikeys", "/v1/projects", "/v1/workloads", "/v1/services",
    "/v1/deployments", "/v1/networks", "/v1/volumes", "/v1/secrets", "/v1/configmaps",
    "/v1/nodes", "/v1/buckets", "/v1/buckets/", "/v1/metrics", "/v1/logs", "/v1/alerts",
    "/v1/models", "/healthz"]

example {Content : Type} (sv : Server Content) (moment : Moment) :
    (sv.routes moment).map Prod.fst = patterns := rfl

/-- The rule of `http.ServeMux`: a pattern with a slash at its end is for all paths below it,
and any other pattern for itself. -/
def patternMatches (pattern path : String) : Bool :=
  if hasSuffix pattern "/" then hasPrefix path pattern else pattern = path

def Routed (path : String) : Prop := ∃ pattern ∈ patterns, patternMatches pattern path = true

/-- The resource that `resourceFor` takes from a path. -/
def resourceOf (path : String) : String :=
  if (split (trim path '/') '/').length < 3 then path else trimPrefix path "/v1/"

theorem resourceFor_eq (r : Request) : resourceFor r = resourceOf r.path := rfl

/-! ## Rules -/

/-- Every pattern matches its own text. -/
theorem matchPart_self (pattern : String) : matchPart pattern pattern = true := by
  unfold matchPart
  split
  · rfl
  split
  · rw [hasPrefix, dropLast, String.toList_ofList, List.isPrefixOf_iff_prefix]
    exact List.dropLast_prefix _
  split
  · rw [hasSuffix, dropFirst, String.toList_ofList, List.isSuffixOf_iff_suffix]
    exact List.tail_suffix _
  · exact decide_eq_true rfl

theorem verbFor_plain (method : String) : ':' ∉ (verbFor method).toList := by
  unfold verbFor
  split
  · decide
  split
  · decide
  split
  · decide
  split
  · decide
  · decide

/-- What the rule for a verb and a resource grants to that verb. -/
theorem matchRule_verb (method resource asked : String) :
    matchRule (verbFor method ++ ":" ++ resource) (verbFor method) asked =
      matchPart resource asked := by
  have parts : cut (verbFor method ++ ":" ++ resource) ':' = some (verbFor method, resource) :=
    cut_append (verbFor_plain method) resource
  rw [matchRule_of_cut parts, matchPart_self, Bool.true_and]

/-- A rule grants in every rule set what it grants alone. -/
theorem grants_iff_matchRule {rule verb asked : String} :
    (∀ rules, rule ∈ rules → hasPermission rules verb asked = true) ↔
      matchRule rule verb asked = true := by
  constructor
  · intro grants
    have alone := grants [rule] (List.mem_singleton.mpr rfl)
    rw [hasPermission, List.any_cons, List.any_nil, Bool.or_false] at alone
    exact alone
  · intro matched rules member
    exact List.any_eq_true.mpr ⟨rule, member, matched⟩

/-! ## Paths -/

/-- The path is one below `/v1/buckets/` with something else than slashes behind it. -/
def BelowBuckets (resource : String) : Prop :=
  ∃ key, resource = "buckets/" ++ key ∧ ∃ c ∈ key.toList, c ≠ '/'

theorem trim_buckets (key : String) :
    trim ("/v1/" ++ ("buckets/" ++ key)) '/' =
      String.ofList
        (("v1/buckets/".toList ++ key.toList).reverse.dropWhile fun c => c == '/').reverse := by
  rw [trim, String.toList_append, String.toList_append]
  rfl

/-- Below a bucket there are three segments, and the resource is the rest of the path. -/
theorem resourceOf_below {key : String} (below : ∃ c ∈ key.toList, c ≠ '/') :
    resourceOf ("/v1/" ++ ("buckets/" ++ key)) = "buckets/" ++ key := by
  have segments (rest : List Char) :
      3 ≤ (split (String.ofList ("v1/buckets/".toList ++ rest)) '/').length := by
    have around : String.ofList ("v1/buckets/".toList ++ rest) =
        "v1/buckets" ++ String.singleton '/' ++ String.ofList rest := by
      rw [← String.toList_inj, String.toList_ofList, String.toList_append, String.toList_append,
        @String.toList_ofList rest, String.toList_singleton]
      rfl
    have two : (split "v1/buckets" '/').length = 2 := by decide
    have nonempty := List.length_pos_iff.mpr (split_ne_nil (String.ofList rest) '/')
    rw [around, split_append, List.length_append, two]
    omega
  have long := segments (key.toList.reverse.dropWhile fun c => c == '/').reverse
  rw [← trimEnd_append below, ← trim_buckets] at long
  rw [resourceOf, if_neg (Nat.not_lt.mpr long), trimPrefix_append]

/-- With nothing but slashes behind it there are two, and the resource is the whole path. -/
theorem resourceOf_buckets {key : String} (slashes : ∀ c ∈ key.toList, c = '/') :
    resourceOf ("/v1/" ++ ("buckets/" ++ key)) = "/v1/" ++ ("buckets/" ++ key) := by
  have short : (split (trim ("/v1/" ++ ("buckets/" ++ key)) '/') '/').length < 3 := by
    rw [trim_buckets, trimEnd_separators slashes]
    decide
  rw [resourceOf, if_pos short]

/-- A resource without a star is not granted as the whole path. -/
theorem matchPart_whole {resource : String} (nonempty : resource ≠ "")
    (plain : ∀ c ∈ resource.toList, c ≠ '*') :
    matchPart resource ("/v1/" ++ resource) = false := by
  have noSuffix : hasSuffix resource "*" = false := by
    rw [hasSuffix, Bool.eq_false_iff, Ne, List.isSuffixOf_iff_suffix]
    intro suffix
    exact plain '*' (suffix.subset (List.mem_singleton.mpr rfl)) rfl
  have noPrefix : hasPrefix resource "*" = false := by
    rw [hasPrefix, Bool.eq_false_iff, Ne, List.isPrefixOf_iff_prefix]
    intro isPrefix
    exact plain '*' (isPrefix.subset (List.mem_singleton.mpr rfl)) rfl
  rw [Bool.eq_false_iff, Ne, matchPart_plain nonempty noSuffix noPrefix]
  intro same
  have lengths := congrArg String.length same
  have four : "/v1/".length = 4 := rfl
  rw [String.length_append] at lengths
  omega

/-- The routes other than the one below `/v1/buckets/` have two segments. -/
theorem resourceOf_exact {path resource : String} (isPath : path = "/v1/" ++ resource)
    (listed : path ∈ patterns) (notBelow : path ≠ "/v1/buckets/") :
    matchPart resource (resourceOf path) = false ∧ ¬BelowBuckets resource := by
  have all : ∀ pattern ∈ patterns, hasPrefix pattern "/v1/" = true → pattern ≠ "/v1/buckets/" →
      matchPart (trimPrefix pattern "/v1/") (resourceOf pattern) = false ∧
        hasPrefix (trimPrefix pattern "/v1/") "buckets/" = false := by
    decide +kernel
  have isResource : trimPrefix path "/v1/" = resource := by rw [isPath, trimPrefix_append]
  obtain ⟨refused, other⟩ := all path listed (hasPrefix_iff.mpr ⟨resource, isPath⟩) notBelow
  rw [isResource] at refused other
  refine ⟨refused, ?_⟩
  rintro ⟨key, below, _⟩
  rw [hasPrefix_iff.mpr ⟨key, below⟩] at other
  cases other

theorem belowBuckets_append (key : String) :
    BelowBuckets ("buckets/" ++ key) ↔ ∃ c ∈ key.toList, c ≠ '/' := by
  constructor
  · rintro ⟨key', same, deep⟩
    have sameKey := congrArg (fun text => trimPrefix text "buckets/") same
    simp only [trimPrefix_append] at sameKey
    exact sameKey ▸ deep
  · intro deep
    exact ⟨key, rfl, deep⟩

/-- The rule for a resource under `buckets/` grants it if something is behind the slash. -/
theorem matchPart_buckets (key : String) :
    matchPart ("buckets/" ++ key) (resourceOf ("/v1/" ++ ("buckets/" ++ key))) = true ↔
      ∃ c ∈ key.toList, c ≠ '/' := by
  constructor
  · intro granted
    by_contra shallow
    have slashes : ∀ c ∈ key.toList, c = '/' := fun c member =>
      not_not.mp fun different => shallow ⟨c, member, different⟩
    have nonempty : "buckets/" ++ key ≠ "" := by
      intro empty
      have chars := congrArg String.toList empty
      rw [String.toList_append] at chars
      cases chars
    have plain : ∀ c ∈ ("buckets/" ++ key).toList, c ≠ '*' := by
      have fixed : '*' ∉ "buckets/".toList := by decide
      intro c member
      rw [String.toList_append, List.mem_append] at member
      rcases member with early | late
      · intro isStar
        exact fixed (isStar ▸ early)
      · rw [slashes c late]
        decide
    rw [resourceOf_buckets slashes, matchPart_whole nonempty plain] at granted
    cases granted
  · intro deep
    rw [resourceOf_below deep]
    exact matchPart_self _

/-- The rule for a routed resource grants the request exactly below a bucket. -/
theorem matchPart_routed {path resource : String} (isPath : path = "/v1/" ++ resource)
    (routed : Routed path) :
    matchPart resource (resourceOf path) = true ↔ BelowBuckets resource := by
  obtain ⟨pattern, registered, matched⟩ := routed
  have slashes : ∀ p ∈ patterns, hasSuffix p "/" = true → p = "/v1/buckets/" := by decide +kernel
  unfold patternMatches at matched
  split at matched
  · rename_i atEnd
    rw [slashes pattern registered atEnd] at matched
    obtain ⟨key, below⟩ := hasPrefix_iff.mp matched
    have around : "/v1/buckets/" ++ key = "/v1/" ++ ("buckets/" ++ key) := by
      rw [← String.append_assoc]
      rfl
    have isBelow : resource = "buckets/" ++ key := by
      rw [← trimPrefix_append "/v1/" resource, ← isPath, below, around, trimPrefix_append]
    rw [isPath, isBelow, matchPart_buckets, belowBuckets_append]
  · rename_i notSlash
    have isPattern : pattern = path := of_decide_eq_true matched
    have notBelow : path ≠ "/v1/buckets/" := by
      rintro rfl
      exact notSlash (isPattern ▸ rfl)
    obtain ⟨refused, other⟩ := resourceOf_exact isPath (isPattern ▸ registered) notBelow
    rw [refused]
    constructor
    · intro impossible
      cases impossible
    · intro below
      exact absurd below other

/-- Rules and requests use one vocabulary below a bucket, and nowhere else: the rule made of
the verb and the resource of a routed request grants it exactly if the path goes on behind
`/v1/buckets/`. -/
theorem rule_grants_iff {r : Request} {resource : String} (isPath : r.path = "/v1/" ++ resource)
    (routed : Routed r.path) :
    (∀ rules, verbFor r.method ++ ":" ++ resource ∈ rules →
        hasPermission rules (verbFor r.method) (resourceFor r) = true) ↔
      BelowBuckets resource := by
  rw [grants_iff_matchRule, matchRule_verb, resourceFor_eq]
  exact matchPart_routed isPath routed

/-- A request without headers and body. -/
def plainRequest (method path : String) : Request where
  method := method
  path := path
  query := fun _ => ""
  header := fun _ => ""
  cookie := fun _ => none
  body := ""

/-- The rule for an object grants the deletion of the object. -/
theorem rule_grants_object :
    hasPermission ["delete:buckets/b/k"] "delete"
      (resourceFor (plainRequest "DELETE" "/v1/buckets/b/k")) = true :=
  (@rule_grants_iff (plainRequest "DELETE" "/v1/buckets/b/k") "buckets/b/k" rfl
    ⟨"/v1/buckets/", by decide, by decide⟩).mpr ⟨"b/k", rfl, 'b', by decide, by decide⟩
    ["delete:buckets/b/k"] (by decide)

/-- The operator has the rule `get:nodes`, and may not get the nodes. -/
theorem operator_nodes_refused :
    Routed "/v1/nodes" ∧ verbFor "GET" ++ ":" ++ "nodes" ∈ builtinRoles .operator ∧
      hasPermission (builtinRoles .operator) (verbFor "GET")
        (resourceFor (plainRequest "GET" "/v1/nodes")) = false :=
  ⟨⟨"/v1/nodes", by decide, by decide⟩, by decide, by decide +kernel⟩

end MiniCloud.Api
