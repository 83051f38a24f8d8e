import Mathlib.Tactic.Common

/-!
# A slice and its backing arrays

A slice is a part of a backing array.  Appending writes behind the part as long as the
array has room, and otherwise copies the part into a new array; pointers into the old
one stay valid and are cut off from the slice.  Emptying a slice keeps its array, so
that refilling it writes over the old elements.
-/

namespace MiniCloud.Library

/-- A place in one of the arrays. -/
structure Pointer where
  array : Nat
  index : Nat
  deriving DecidableEq, Repr

/-- All arrays, and the one that the first elements of the slice are in. -/
structure Slice (Cell : Type*) where
  arrays : List (List Cell)
  array : Nat
  len : Nat
  fits : len ≤ (arrays[array]?.getD []).length

namespace Slice

variable {Cell : Type*}

/-- The array of the slice. -/
def cells (s : Slice Cell) : List Cell := s.arrays[s.array]?.getD []

def elements (s : Slice Cell) : List Cell := s.cells.take s.len

def empty : Slice Cell := ⟨[], 0, 0, Nat.le_refl 0⟩

/-- What a pointer points to. -/
def load (s : Slice Cell) (p : Pointer) : Option Cell := s.arrays[p.array]?.bind fun a => a[p.index]?

theorem cells_modify (arrays : List (List Cell)) (change : List Cell → List Cell) (i j : Nat)
    (nothing : change [] = []) :
    (arrays.modify i change)[j]?.getD [] =
      if i = j then change (arrays[j]?.getD []) else arrays[j]?.getD [] := by
  rw [List.getElem?_modify]
  cases arrays[j]? with
  | none =>
      split
      · exact nothing.symm
      · rfl
  | some a =>
      split
      · rfl
      · rfl

/-- Change what a pointer points to. -/
def store (s : Slice Cell) (p : Pointer) (change : Cell → Cell) : Slice Cell where
  arrays := s.arrays.modify p.array fun a => a.modify p.index change
  array := s.array
  len := s.len
  fits := by
    rw [cells_modify _ (fun a => a.modify p.index change) _ _ (List.modify_nil change p.index)]
    split
    · rw [List.length_modify]
      exact s.fits
    · exact s.fits

/-- The slice without elements, in the same array. -/
def clear (s : Slice Cell) : Slice Cell := ⟨s.arrays, s.array, 0, Nat.zero_le _⟩

theorem length_elements (s : Slice Cell) : s.elements.length = s.len := by
  rw [elements, List.length_take]
  exact Nat.min_eq_left s.fits

/-- Write an element behind the slice, where its array has room. -/
def extend (s : Slice Cell) (x : Cell) (inside : s.len < s.cells.length) : Slice Cell where
  arrays := s.arrays.modify s.array fun a => a.set s.len x
  array := s.array
  len := s.len + 1
  fits := by
    rw [cells_modify _ _ _ _ List.set_nil, if_pos rfl, List.length_set]
    exact inside

/-- Copy the slice and an element into a new array, with more cells behind them. -/
def relocate (room : List Cell) (s : Slice Cell) (x : Cell) : Slice Cell where
  arrays := s.arrays ++ [s.elements ++ x :: room]
  array := s.arrays.length
  len := s.len + 1
  fits := by
    rw [List.getElem?_concat_length, Option.getD_some, List.length_append, length_elements,
      List.length_cons]
    omega

/-- Append an element; `room` gives the cells that a new array has behind it. -/
def append (room : Nat → List Cell) (s : Slice Cell) (x : Cell) : Slice Cell :=
  if inside : s.len < s.cells.length then s.extend x inside else s.relocate (room s.len) x

/-- Empty the slice, and append all elements. -/
def refill (room : Nat → List Cell) (s : Slice Cell) (xs : List Cell) : Slice Cell :=
  xs.foldl (append room) s.clear

variable {room : Nat → List Cell} {s : Slice Cell} {x : Cell}

/-- An element is what the pointer to its place points to. -/
theorem load_element {i : Nat} (element : s.elements[i]? = some x) :
    s.load ⟨s.array, i⟩ = some x := by
  have inside : i < s.len := by
    rw [← length_elements]
    exact (List.getElem?_eq_some_iff.mp element).1
  rw [← element, elements, List.getElem?_take_of_lt inside, load, cells]
  cases s.arrays[s.array]? with
  | none => rfl
  | some a => rfl

theorem elements_store (s : Slice Cell) (i : Nat) (change : Cell → Cell) :
    (s.store ⟨s.array, i⟩ change).elements = s.elements.modify i change := by
  have stored : (s.store ⟨s.array, i⟩ change).cells = s.cells.modify i change := by
    unfold store cells
    rw [cells_modify _ (fun a => a.modify i change) _ _ (List.modify_nil change i), if_pos rfl]
  rw [elements, stored]
  exact List.take_modify _ _ _ _

theorem cells_extend (inside : s.len < s.cells.length) :
    (s.extend x inside).cells = s.cells.set s.len x := by
  unfold extend cells
  rw [cells_modify _ _ _ _ List.set_nil, if_pos rfl]

theorem elements_append (room : Nat → List Cell) (s : Slice Cell) (x : Cell) :
    (s.append room x).elements = s.elements ++ [x] := by
  unfold append
  split
  case isTrue inside =>
    rw [elements, cells_extend]
    change (s.cells.set s.len x).take (s.len + 1) = s.cells.take s.len ++ [x]
    rw [List.take_add_one, List.take_set_of_le (Nat.le_refl _), List.getElem?_set_self inside]
    rfl
  case isFalse full =>
    have copied : (s.relocate (room s.len) x).cells = s.elements ++ x :: room s.len := by
      unfold relocate cells
      rw [List.getElem?_concat_length]
      rfl
    have before : s.len + 1 - s.elements.length = 1 := by
      rw [length_elements]
      omega
    rw [elements, copied]
    change (s.elements ++ x :: room s.len).take (s.len + 1) = s.elements ++ [x]
    rw [List.take_append, before, List.take_of_length_le]
    · rfl
    · rw [length_elements]
      omega

theorem elements_refill (room : Nat → List Cell) (s : Slice Cell) (xs : List Cell) :
    (s.refill room xs).elements = xs := by
  have appended (start : Slice Cell) :
      (xs.foldl (append room) start).elements = start.elements ++ xs := by
    induction xs generalizing start with
    | nil => exact (List.append_nil _).symm
    | cons x rest ih =>
        rw [List.foldl_cons, ih, elements_append, List.append_assoc]
        rfl
  exact appended s.clear

/-- Elements that fit into the array are written into it. -/
theorem array_refill {xs : List Cell} (fits : xs.length ≤ s.cells.length) :
    (s.refill room xs).array = s.array := by
  have stays (start : Slice Cell) (fit : start.len + xs.length ≤ start.cells.length) :
      (xs.foldl (append room) start).array = start.array := by
    clear fits
    induction xs generalizing start with
    | nil => rfl
    | cons x rest ih =>
        rw [List.length_cons] at fit
        have inside : start.len < start.cells.length := by omega
        rw [List.foldl_cons, append, dif_pos inside, ih]
        · rfl
        · rw [cells_extend, List.length_set]
          change start.len + 1 + rest.length ≤ start.cells.length
          omega
  apply stays s.clear
  rw [clear, Nat.zero_add]
  exact fits

end Slice

end MiniCloud.Library
