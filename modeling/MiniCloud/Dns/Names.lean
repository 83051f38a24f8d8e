import Mathlib.Data.List.Basic
import Mathlib.Data.Nat.Bitwise
import MiniCloud.Library.Chains

/-!
# Reading names

A name is a sequence of labels that ends with a zero byte or with a compression
pointer.  At a pointer `readName` calls itself with the offset that the pointer gives,
whatever that is, so a cycle of pointers is followed without end.
-/

namespace MiniCloud.Dns

open Relation (ReflTransGen TransGen)

abbrev Bytes := List UInt8

/-- `.` -/
def dot : UInt8 := 46

/-- `strings.Join(labels, ".")` -/
def join (labels : List Bytes) : Bytes := [dot].intercalate labels

inductive NameError where
  | outOfBounds
  | pointerTruncated
  | labelOutOfBounds
  deriving DecidableEq, Repr

/-- What stands at an offset. -/
inductive Item where
  | outside
  | root
  | cut
  | pointer (ptr : Nat)
  | long
  | label (bytes : Bytes)
  deriving DecidableEq, Repr

/-- The tests of one round of the loop, in their order. -/
def item (buf : Bytes) (off : Nat) : Item :=
  match buf[off]? with
  | none => .outside
  | some b =>
      let l := b.toNat
      if l = 0 then .root
      else if 192 ≤ l then
        match buf[off + 1]? with
        | none => .cut
        | some low => .pointer ((l * 256 + low.toNat) &&& 0x3FFF)
      else if buf.length < off + 1 + l then .long
      else .label ((buf.drop (off + 1)).take l)

/-- The name or the error, with the offset that is returned. -/
abbrev Named := Except (NameError × Nat) (Bytes × Nat)

/-- The loop of `readName`, with the labels read so far.  The fuel bounds the rounds,
those of the recursive calls included. -/
def readNameFrom (buf : Bytes) : Nat → Nat → List Bytes → Option Named
  | 0, _, _ => none
  | fuel + 1, off, labels =>
      match item buf off with
      | .outside => some (.error (.outOfBounds, off))
      | .root => some (.ok (join labels, off + 1))
      | .cut => some (.error (.pointerTruncated, off + 1))
      | .pointer ptr =>
          match readNameFrom buf fuel ptr [] with
          | none => none
          | some (.error (e, _)) => some (.error (e, off + 1))
          | some (.ok (sub, _)) => some (.ok (join (labels ++ [sub]), off + 2))
      | .long => some (.error (.labelOutOfBounds, off + 1))
      | .label bytes => readNameFrom buf fuel (off + 1 + bytes.length) (labels ++ [bytes])

def readName (fuel : Nat) (buf : Bytes) (off : Nat) : Option Named := readNameFrom buf fuel off []

/-- Reading at the offset comes, after some labels, to a pointer to `ptr`. -/
inductive Leads (buf : Bytes) : Nat → Nat → Prop where
  | here {off ptr : Nat} (pointer : item buf off = .pointer ptr) : Leads buf off ptr
  | later {off ptr : Nat} {bytes : Bytes} (label : item buf off = .label bytes)
      (rest : Leads buf (off + 1 + bytes.length) ptr) : Leads buf off ptr

/-- A pointer has fourteen bits.  A root is a zero byte.  A label is neither empty nor as
long as a pointer, and stands in the buffer behind its length. -/
theorem item_spec (buf : Bytes) (off : Nat) :
    match item buf off with
    | .root => buf.drop off = 0 :: buf.drop (off + 1)
    | .pointer ptr => ptr < 2 ^ 14
    | .label bytes =>
        off + 1 + bytes.length ≤ buf.length ∧ (bytes ≠ [] ∧ bytes.length < 192) ∧
          buf.drop off = UInt8.ofNat bytes.length :: (bytes ++ buf.drop (off + 1 + bytes.length))
    | _ => True := by
  unfold item
  cases first : buf[off]? with
  | none => trivial
  | some b =>
      obtain ⟨inside, isFirst⟩ := List.getElem?_eq_some_iff.mp first
      have split := List.drop_eq_getElem_cons inside
      rw [isFirst] at split
      have byte : UInt8.ofNat b.toNat = b := UInt8.ofNat_toNat
      by_cases zero : b.toNat = 0
      · simp only [zero, if_true]
        rw [split, ← byte, zero]
        rfl
      · by_cases high : 192 ≤ b.toNat
        · simp only [zero, high, if_false, if_true]
          cases buf[off + 1]? with
          | none => trivial
          | some low => exact Nat.and_lt_two_pow _ (by decide)
        · by_cases long : buf.length < off + 1 + b.toNat
          · simp only [zero, high, long, if_false, if_true]
          · have length : ((buf.drop (off + 1)).take b.toNat).length = b.toNat := by
              rw [List.length_take, List.length_drop]
              omega
            have behind : buf.drop (off + 1 + b.toNat) = (buf.drop (off + 1)).drop b.toNat :=
              List.drop_drop.symm
            simp only [zero, high, long, if_false, length]
            refine ⟨Nat.not_lt.mp long, ⟨?_, Nat.not_le.mp high⟩, ?_⟩
            · intro empty
              rw [empty] at length
              exact zero length.symm
            · rw [split, byte, behind, List.take_append_drop]

theorem drop_of_root {buf : Bytes} {off : Nat} (root : item buf off = .root) :
    buf.drop off = 0 :: buf.drop (off + 1) := by
  have spec := item_spec buf off
  rw [root] at spec
  exact spec

theorem pointer_lt {buf : Bytes} {off ptr : Nat} (pointer : item buf off = .pointer ptr) :
    ptr < 2 ^ 14 := by
  have spec := item_spec buf off
  rw [pointer] at spec
  exact spec

section Label

variable {buf : Bytes} {off : Nat} {bytes : Bytes}

theorem label_spec (label : item buf off = .label bytes) :
    off + 1 + bytes.length ≤ buf.length ∧ (bytes ≠ [] ∧ bytes.length < 192) ∧
      buf.drop off = UInt8.ofNat bytes.length :: (bytes ++ buf.drop (off + 1 + bytes.length)) := by
  have spec := item_spec buf off
  rw [label] at spec
  exact spec

theorem label_within (label : item buf off = .label bytes) : off + 1 + bytes.length ≤ buf.length :=
  (label_spec label).1

theorem label_short (label : item buf off = .label bytes) : bytes ≠ [] ∧ bytes.length < 192 :=
  (label_spec label).2.1

theorem drop_of_label (label : item buf off = .label bytes) :
    buf.drop off = UInt8.ofNat bytes.length :: (bytes ++ buf.drop (off + 1 + bytes.length)) :=
  (label_spec label).2.2

end Label

theorem Leads.lt {buf : Bytes} {off ptr : Nat} (leads : Leads buf off ptr) : ptr < 2 ^ 14 := by
  induction leads with
  | here pointer => exact pointer_lt pointer
  | later _ _ ih => exact ih

/-! ## When a name is read to its end -/

/-- The call comes back, with a name or an error. -/
def Returns (buf : Bytes) (off : Nat) (labels : List Bytes) : Prop :=
  ∃ fuel named, readNameFrom buf fuel off labels = some named

theorem returns_of_pointer {buf : Bytes} {off ptr : Nat} (pointer : item buf off = .pointer ptr)
    (returns : Returns buf ptr []) (labels : List Bytes) : Returns buf off labels := by
  obtain ⟨fuel, named, read⟩ := returns
  cases named with
  | error failed =>
      refine ⟨fuel + 1, .error (failed.1, off + 1), ?_⟩
      rw [readNameFrom, pointer]
      simp only [read]
  | ok found =>
      refine ⟨fuel + 1, .ok (join (labels ++ [found.1]), off + 2), ?_⟩
      rw [readNameFrom, pointer]
      simp only [read]

/-- A call comes back if those for the pointers that it comes to do.  Its own labels
are finitely many, since each goes on in the buffer. -/
theorem returns_of_leads {buf : Bytes} {off : Nat}
    (pointers : ∀ ptr, Leads buf off ptr → Returns buf ptr []) (labels : List Bytes) :
    Returns buf off labels := by
  induction left : buf.length - off using Nat.strong_induction_on generalizing off labels with
  | _ left ih =>
      cases read : item buf off with
      | outside => exact ⟨1, _, by rw [readNameFrom, read]⟩
      | root => exact ⟨1, _, by rw [readNameFrom, read]⟩
      | cut => exact ⟨1, _, by rw [readNameFrom, read]⟩
      | long => exact ⟨1, _, by rw [readNameFrom, read]⟩
      | pointer ptr => exact returns_of_pointer read (pointers ptr (.here read)) labels
      | label bytes =>
          have within := label_within read
          obtain ⟨fuel, named, rest⟩ := ih (buf.length - (off + 1 + bytes.length)) (by omega)
            (fun ptr leads => pointers ptr (.later read leads)) (labels ++ [bytes]) rfl
          refine ⟨fuel + 1, named, ?_⟩
          rw [readNameFrom, read]
          exact rest

/-- The pointers that a returning call comes to are those of returning calls. -/
theorem ends_of_returns {buf : Bytes} {fuel off : Nat} {labels : List Bytes} {named : Named}
    (returned : readNameFrom buf fuel off labels = some named) :
    Library.Ends (Leads buf) off := by
  induction fuel generalizing off labels named with
  | zero => cases returned
  | succ fuel ih =>
      rw [readNameFrom] at returned
      refine Acc.intro off ?_
      intro ptr leads
      cases leads with
      | here pointer =>
          rw [pointer] at returned
          cases sub : readNameFrom buf fuel ptr [] with
          | none =>
              simp only [sub] at returned
              cases returned
          | some subNamed => exact ih sub
      | later label rest =>
          rw [label] at returned
          exact (ih returned).inv rest

theorem returns_of_ends {buf : Bytes} {off : Nat} (ends : Library.Ends (Leads buf) off)
    (labels : List Bytes) : Returns buf off labels := by
  induction ends generalizing labels with
  | intro off _ ih => exact returns_of_leads (fun ptr leads => ih ptr leads []) labels

/-- `readName` returns if and only if no pointer that it comes to leads back to
itself. -/
theorem readName_returns_iff (buf : Bytes) (off : Nat) :
    (∃ fuel named, readName fuel buf off = some named) ↔
      ∀ ptr, ReflTransGen (Leads buf) off ptr → ¬ TransGen (Leads buf) ptr ptr := by
  have targets : {ptr | ∃ off, Leads buf off ptr}.Finite := by
    refine (Set.finite_Iio (2 ^ 14)).subset ?_
    rintro ptr ⟨source, leads⟩
    exact leads.lt
  rw [← Library.ends_iff_acyclic targets]
  constructor
  · rintro ⟨fuel, named, returned⟩
    exact ends_of_returns returned
  · intro ends
    exact returns_of_ends ends []

/-- A query whose name is a pointer to itself. -/
def selfPointer : Bytes := List.replicate 12 0 ++ [0xC0, 0x0C, 0, 1, 0, 1]

/-- No number of rounds is enough to read it. -/
theorem readName_selfPointer :
    (fun fuel => readName fuel selfPointer 12) = fun _ => none := by
  funext fuel
  unfold readName
  induction fuel with
  | zero => rfl
  | succ fuel ih =>
      have read : item selfPointer 12 = .pointer 12 := by decide
      rw [readNameFrom, read]
      simp only [ih]

end MiniCloud.Dns
