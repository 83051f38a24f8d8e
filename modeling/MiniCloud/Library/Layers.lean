import Mathlib.Data.List.AList

/-!
# Maps in layers

Maps that are written over one another, the later over the earlier ones, where each map may
be an error instead.  The first error is the result; without one a key has the value of the
last map that holds it.
-/

namespace MiniCloud.Library

/-- Either all results are values, or there is a first error. -/
theorem first_error_cases {γ ε : Type} (results : List (Except ε γ)) :
    (∃ values : List γ, results = values.map .ok) ∨
      ∃ (values : List γ) (err : ε) (later : List (Except ε γ)),
        results = values.map .ok ++ .error err :: later := by
  induction results with
  | nil => exact .inl ⟨[], rfl⟩
  | cons result results ih =>
      cases result with
      | error err => exact .inr ⟨[], err, results, rfl⟩
      | ok value =>
          rcases ih with ⟨values, rfl⟩ | ⟨values, err, later, rfl⟩
          · exact .inl ⟨value :: values, rfl⟩
          · exact .inr ⟨value :: values, err, later, rfl⟩

variable {α ε : Type} {β : α → Type} [DecidableEq α]

/-- All entries of a map written into another one. -/
def overlay (out m : AList β) : AList β :=
  m.entries.foldl (fun out entry => out.insert entry.1 entry.2) out

theorem lookup_foldl_insert (entries : List (Sigma β)) (distinct : entries.NodupKeys)
    (out : AList β) (key : α) :
    (entries.foldl (fun out entry => out.insert entry.1 entry.2) out).lookup key =
      (entries.dlookup key).or (out.lookup key) := by
  induction entries generalizing out with
  | nil => rfl
  | cons entry entries ih =>
      obtain ⟨name, value⟩ := entry
      have later := (List.nodupKeys_cons.mp distinct).2
      rw [List.foldl_cons, ih later]
      by_cases same : key = name
      · subst same
        have absent : List.dlookup key entries = none :=
          List.dlookup_eq_none.mpr (List.nodupKeys_cons.mp distinct).1
        rw [absent, List.dlookup_cons_eq, AList.lookup_insert]
        rfl
      · rw [List.dlookup_cons_ne _ _ same, AList.lookup_insert_ne same]

@[simp]
theorem lookup_overlay (out m : AList β) (key : α) :
    (overlay out m).lookup key = (m.lookup key).or (out.lookup key) :=
  lookup_foldl_insert m.entries m.nodupKeys out key

/-- The maps written over the first one in their order, up to an error. -/
def layered (base : AList β) (sources : List (Except ε (AList β))) : Except ε (AList β) :=
  sources.foldlM (fun out source => source.map (overlay out)) base

/-- The value in the last map that holds the key. -/
def topmost (layers : List (AList β)) (key : α) : Option (β key) :=
  layers.reverse.findSome? fun m => m.lookup key

theorem topmost_cons (m : AList β) (layers : List (AList β)) (key : α) :
    topmost (m :: layers) key = (topmost layers key).or (m.lookup key) := by
  rw [topmost, List.reverse_cons, List.findSome?_append, List.findSome?_singleton]
  rfl

theorem layered_ok (base : AList β) (layers : List (AList β)) :
    layered (ε := ε) base (layers.map .ok) = .ok (layers.foldl overlay base) := by
  induction layers generalizing base with
  | nil => rfl
  | cons m layers ih => exact ih (overlay base m)

theorem lookup_foldl_overlay (base : AList β) (layers : List (AList β)) (key : α) :
    (layers.foldl overlay base).lookup key = topmost (base :: layers) key := by
  induction layers generalizing base with
  | nil => simp [topmost]
  | cons m layers ih =>
      rw [List.foldl_cons, ih]
      simp only [topmost_cons, lookup_overlay, Option.or_assoc]

theorem layered_error (base : AList β) (layers : List (AList β)) (err : ε)
    (later : List (Except ε (AList β))) :
    layered base (layers.map .ok ++ .error err :: later) = .error err := by
  induction layers generalizing base with
  | nil => rfl
  | cons m layers ih => exact ih (overlay base m)

theorem layers_of_layered {base out : AList β} {sources : List (Except ε (AList β))}
    (isOk : layered base sources = .ok out) :
    ∃ layers : List (AList β), sources = layers.map .ok := by
  rcases first_error_cases sources with ⟨layers, rfl⟩ | ⟨layers, err, later, rfl⟩
  · exact ⟨layers, rfl⟩
  · rw [layered_error] at isOk
    cases isOk

theorem layered_eq_error_iff {base : AList β} {sources : List (Except ε (AList β))} {err : ε} :
    layered base sources = .error err ↔
      ∃ (layers : List (AList β)) (later : List (Except ε (AList β))),
        sources = layers.map .ok ++ .error err :: later := by
  constructor
  · intro failed
    rcases first_error_cases sources with ⟨layers, rfl⟩ | ⟨layers, first, later, rfl⟩
    · rw [layered_ok] at failed
      cases failed
    · rw [layered_error] at failed
      cases failed
      exact ⟨layers, later, rfl⟩
  · rintro ⟨layers, later, rfl⟩
    exact layered_error base layers err later

end MiniCloud.Library
