import Mathlib.Data.List.AList
import Mathlib.Data.List.Sort
import Mathlib.Data.String.Basic
import MiniCloud.Llm.Engine

/-!
# The registry of models

`Register` stores a model under its name and, if there is one, its engine.  A model that
is registered again replaces the old one, but without an engine it keeps the old engine.
A name without engine is served by a fresh `TinyEngine`, so every name has an engine.
-/

namespace MiniCloud.Llm

open MiniCloud.State (Time)

/-- An engine: what `Chat` returns, and what is received from the channel that `Stream`
returns; `none` is a panic. -/
structure Engine where
  chat : Context → ChatRequest → Option (Except String Response)
  stream : Context → ChatRequest → Option (Except String (List String))

/-- A `TinyEngine`, with the random text and the time of its answers. -/
def tinyEngine (newRand : Generator) (randID : String) (created : Time) : Engine where
  chat ctx req := chat newRand ctx randID created req
  stream ctx req := stream newRand ctx req

structure Model where
  name : String
  revision : String
  backend : String
  createdAt : Time
  deriving DecidableEq, Repr

structure Registry where
  models : AList fun _ : String => Model
  engines : AList fun _ : String => Engine

/-- The arguments of `Register`, and the clock. -/
structure Registration where
  now : Time
  model : Model
  /-- The engine, unless it is `nil`. -/
  engine : Option Engine

/-- The model as it is stored. -/
def Registration.stored (call : Registration) : Model :=
  { call.model with createdAt := call.now }

namespace Registry

/-- `NewRegistry`. -/
def new : Registry := ⟨∅, ∅⟩

/-- `Register`, with the text of its error. -/
def register (r : Registry) (call : Registration) : Registry × Option String :=
  if call.model.name = "" then (r, some "llm: model name required")
  else
    ({ models := r.models.insert call.model.name call.stored
       engines :=
        match call.engine with
        | none => r.engines
        | some eng => r.engines.insert call.model.name eng }, none)

/-- `Resolve`, with the engine that `NewTinyEngine` makes. -/
def resolve (r : Registry) (fresh : Engine) (name : String) : Engine :=
  (r.engines.lookup name).getD fresh

def names (r : Registry) : List String := r.models.keys.insertionSort fun a b => a ≤ b

def get (r : Registry) (name : String) : Option Model := r.models.lookup name

/-- The registry after some calls of `Register`. -/
def after (calls : List Registration) : Registry :=
  calls.foldl (fun r call => (r.register call).1) new

/-! ## The calls that count -/

/-- The calls that have stored a model under the name. -/
def registered (calls : List Registration) (name : String) : List Registration :=
  calls.filter fun call => call.model.name = name ∧ name ≠ ""

theorem after_append (calls : List Registration) (call : Registration) :
    after (calls ++ [call]) = ((after calls).register call).1 := by
  rw [after, List.foldl_append]
  rfl

theorem registered_append_self {calls : List Registration} {call : Registration} {name : String}
    (isName : call.model.name = name) (named : name ≠ "") :
    registered (calls ++ [call]) name = registered calls name ++ [call] := by
  simp [registered, isName, named]

theorem registered_append_other {calls : List Registration} {call : Registration} {name : String}
    (other : ¬(call.model.name = name ∧ name ≠ "")) :
    registered (calls ++ [call]) name = registered calls name := by
  unfold registered
  rw [List.filter_append, List.filter_singleton, decide_eq_false other]
  exact List.append_nil _

variable {r : Registry} {call : Registration} {name : String}

/-- A call for another name that is not refused. -/
theorem name_ne_of_other (other : ¬(call.model.name = name ∧ name ≠ ""))
    (named : call.model.name ≠ "") : name ≠ call.model.name := by
  rintro rfl
  exact other ⟨rfl, named⟩

theorem get_register_self (named : call.model.name ≠ "") :
    (r.register call).1.get call.model.name = some call.stored := by
  simp only [register, if_neg named, get]
  exact AList.lookup_insert _

theorem get_register_other (other : ¬(call.model.name = name ∧ name ≠ "")) :
    (r.register call).1.get name = r.get name := by
  unfold register
  split
  · rfl
  · rename_i named
    exact AList.lookup_insert_ne (name_ne_of_other other named)

theorem engines_register_self (named : call.model.name ≠ "") :
    (r.register call).1.engines.lookup call.model.name =
      call.engine.or (r.engines.lookup call.model.name) := by
  simp only [register, if_neg named]
  cases call.engine with
  | none => rfl
  | some eng => exact AList.lookup_insert _

theorem engines_register_other (other : ¬(call.model.name = name ∧ name ≠ "")) :
    (r.register call).1.engines.lookup name = r.engines.lookup name := by
  unfold register
  split
  · rfl
  · rename_i named
    cases call.engine with
    | none => rfl
    | some eng => exact AList.lookup_insert_ne (name_ne_of_other other named)

/-! ## Runs of calls -/

theorem get_after (calls : List Registration) (name : String) :
    (after calls).get name = (registered calls name).getLast?.map Registration.stored := by
  induction calls using List.reverseRecOn with
  | nil => rfl
  | append_singleton calls call ih =>
      rw [after_append]
      by_cases isOwn : call.model.name = name ∧ name ≠ ""
      · obtain ⟨rfl, named⟩ := isOwn
        rw [get_register_self named, registered_append_self rfl named]
        simp
      · rw [get_register_other isOwn, registered_append_other isOwn, ih]

theorem engines_after (calls : List Registration) (name : String) :
    (after calls).engines.lookup name =
      ((registered calls name).filterMap Registration.engine).getLast? := by
  induction calls using List.reverseRecOn with
  | nil => rfl
  | append_singleton calls call ih =>
      rw [after_append]
      by_cases isOwn : call.model.name = name ∧ name ≠ ""
      · obtain ⟨rfl, named⟩ := isOwn
        rw [engines_register_self named, registered_append_self rfl named, ih,
          List.filterMap_append]
        cases given : call.engine with
        | none => simp [given]
        | some eng => simp [given]
      · rw [engines_register_other isOwn, registered_append_other isOwn, ih]

theorem mem_names_iff : name ∈ r.names ↔ ∃ m, r.get name = some m := by
  rw [names, List.mem_insertionSort, ← AList.mem_keys, ← AList.lookup_isSome, Option.isSome_iff_exists]
  rfl

theorem names_sorted (r : Registry) : r.names.Pairwise fun a b => a < b := by
  have distinct : r.names.Nodup :=
    (List.perm_insertionSort _ r.models.keys).nodup_iff.mpr r.models.keys_nodup
  have sorted : r.names.Pairwise fun a b => a ≤ b := List.pairwise_insertionSort _ _
  exact (sorted.and distinct).imp fun ⟨below, different⟩ => lt_of_le_of_ne below different

/-- After any calls of `Register`, `Names` lists in increasing order, and once each, the names
that a model was registered under; `Get` returns the model registered last under a name, and
`Resolve` the engine registered last under it, or the fresh one if no call gave an engine. -/
theorem registry_follows_calls (calls : List Registration) :
    (after calls).names.Pairwise (fun a b => a < b) ∧
      (∀ name, name ∈ (after calls).names ↔ registered calls name ≠ []) ∧
      (∀ name, (after calls).get name =
        (registered calls name).getLast?.map Registration.stored) ∧
      ∀ fresh name, (after calls).resolve fresh name =
        ((registered calls name).filterMap Registration.engine).getLast?.getD fresh := by
  refine ⟨names_sorted _, ?_, get_after calls, ?_⟩
  · intro name
    rw [mem_names_iff, get_after]
    simp [List.getLast?_eq_none_iff, ← Option.ne_none_iff_exists']
  · intro fresh name
    rw [resolve, engines_after]

end Registry

end MiniCloud.Llm
