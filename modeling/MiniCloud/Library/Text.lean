import Mathlib.Data.List.TakeDrop
import Mathlib.Data.List.TakeWhile

/-!
# Byte strings

A byte string is modelled as the text whose characters are its bytes, so that a
length is a number of bytes and an index cuts between bytes.  The modules on queries of
URLs, on JSON and on alert expressions take a text as its characters of Unicode instead,
and its bytes as those of UTF-8.  On ASCII the two agree.
-/

namespace MiniCloud.Library.Text

def hasPrefix (s head : String) : Bool := head.toList.isPrefixOf s.toList

def hasSuffix (s tail : String) : Bool := tail.toList.isSuffixOf s.toList

/-- The text without the given beginning, if it has it. -/
def trimPrefix (s head : String) : String :=
  if hasPrefix s head then String.ofList (s.toList.drop head.toList.length) else s

def take (s : String) (n : Nat) : String := String.ofList (s.toList.take n)

/-- The first `n` bytes, for a text that has as many. -/
def sliceTo (s : String) (n : Nat) : Option String :=
  if n ≤ s.toList.length then some (take s n) else none

/-- The text without its last byte. -/
def dropLast (s : String) : String := String.ofList s.toList.dropLast

/-- The text without its first byte. -/
def dropFirst (s : String) : String := String.ofList s.toList.tail

def split (s : String) (sep : Char) : List String := (s.toList.splitOn sep).map String.ofList

/-- The parts before and after the first separator, if there is one. -/
def cut (s : String) (sep : Char) : Option (String × String) :=
  match s.toList.span (fun c => c != sep) with
  | (_, []) => none
  | (before, _ :: after) => some (String.ofList before, String.ofList after)

/-- The text without the separators at its ends. -/
def trim (s : String) (sep : Char) : String :=
  String.ofList ((s.toList.dropWhile fun c => c == sep).reverse.dropWhile fun c => c == sep).reverse

/-! ## Hexadecimal digits -/

def hexDigit (k : Nat) : Char := Char.ofNat (if k < 10 then 48 + k else 87 + k)

/-- Two digits for each byte. -/
def hexEncode (bytes : List UInt8) : String :=
  String.ofList (bytes.flatMap fun b => [hexDigit (b.toNat / 16), hexDigit (b.toNat % 16)])

theorem hexDigit_inj {j k : Nat} (small : j < 16) (small' : k < 16)
    (same : hexDigit j = hexDigit k) : j = k := by
  have all : ∀ j k : Fin 16, hexDigit j = hexDigit k → j = k := by decide
  exact congrArg Fin.val (all ⟨j, small⟩ ⟨k, small'⟩ same)

theorem hexEncode_inj {bytes bytes' : List UInt8} (same : hexEncode bytes = hexEncode bytes') :
    bytes = bytes' := by
  have digits := String.ofList_inj.mp same
  clear same
  induction bytes generalizing bytes' with
  | nil =>
      cases bytes' with
      | nil => rfl
      | cons b rest => cases digits
  | cons b rest ih =>
      cases bytes' with
      | nil => cases digits
      | cons b' rest' =>
          simp only [List.flatMap_cons, List.cons_append, List.nil_append, List.cons.injEq] at digits
          obtain ⟨high, low, later⟩ := digits
          have bound := b.toNat_lt
          have bound' := b'.toNat_lt
          have sameHigh := hexDigit_inj (by omega) (by omega) high
          have sameLow := hexDigit_inj (by omega) (by omega) low
          have sameByte : b = b' := UInt8.toNat_inj.mp (by omega)
          rw [sameByte, ih later]

/-! ## Parts of a text -/

/-- A code of texts stays injective when one text is given a value that no text has. -/
theorem injective_ite {β : Type} {code : String → β} (injective : Function.Injective code)
    {value : β} (fresh : ∀ text, code text ≠ value) (special : String) :
    Function.Injective fun text => if text = special then value else code text := by
  intro text text' same
  by_cases isSpecial : text = special <;> by_cases isSpecial' : text' = special
  · rw [isSpecial, isSpecial']
  · exact absurd (by simpa [isSpecial, isSpecial'] using same.symm) (fresh text')
  · exact absurd (by simpa [isSpecial, isSpecial'] using same) (fresh text)
  · exact injective (by simpa [isSpecial, isSpecial'] using same)

theorem hasPrefix_iff {s head : String} : hasPrefix s head = true ↔ ∃ rest, s = head ++ rest := by
  rw [hasPrefix, List.isPrefixOf_iff_prefix]
  constructor
  · rintro ⟨rest, whole⟩
    refine ⟨String.ofList rest, String.toList_inj.mp ?_⟩
    rw [String.toList_append, String.toList_ofList, whole]
  · rintro ⟨rest, rfl⟩
    rw [String.toList_append]
    exact List.prefix_append _ _

theorem trimPrefix_append (head rest : String) : trimPrefix (head ++ rest) head = rest := by
  rw [trimPrefix, if_pos (hasPrefix_iff.mpr ⟨rest, rfl⟩), String.toList_append, List.drop_left,
    String.ofList_toList]

/-- A text is cut behind a part that has no separator. -/
theorem cut_append {before : String} {sep : Char} (plain : sep ∉ before.toList) (after : String) :
    cut (before ++ String.singleton sep ++ after) sep = some (before, after) := by
  have kept : ∀ c ∈ before.toList, (c != sep) = true := by
    intro c member
    rw [bne_iff_ne]
    rintro rfl
    exact plain member
  rw [cut, String.toList_append, String.toList_append, String.toList_singleton, List.append_assoc,
    List.singleton_append, List.span_eq_takeWhile_dropWhile,
    List.takeWhile_append_of_pos kept, List.dropWhile_append_of_pos kept, List.takeWhile_cons,
    List.dropWhile_cons, bne_self_eq_false, if_neg Bool.false_ne_true, if_neg Bool.false_ne_true,
    List.append_nil]
  simp only [String.ofList_toList]

/-- The text that was cut is its two parts with the first separator between them. -/
theorem cut_eq_some {s before after : String} {sep : Char} (parts : cut s sep = some (before, after)) :
    s = before ++ String.singleton sep ++ after ∧ sep ∉ before.toList := by
  have whole : s.toList.takeWhile (fun c => c != sep) ++ s.toList.dropWhile (fun c => c != sep) =
      s.toList := List.takeWhile_append_dropWhile
  rw [cut, List.span_eq_takeWhile_dropWhile] at parts
  cases behind : s.toList.dropWhile fun c => c != sep with
  | nil =>
      rw [behind] at parts
      cases parts
  | cons c rest =>
      rw [behind] at parts whole
      obtain ⟨rfl, rfl⟩ := Prod.mk.inj (Option.some.inj parts)
      have isSep : c = sep := by
        have stopped := List.head_dropWhile_not (fun c => c != sep)
          (behind ▸ List.cons_ne_nil c rest : s.toList.dropWhile (fun c => c != sep) ≠ [])
        simpa only [behind, List.head_cons, bne_eq_false_iff_eq] using stopped
      rw [isSep] at whole
      constructor
      · apply String.toList_inj.mp
        rw [String.toList_append, String.toList_append, String.toList_singleton,
          String.toList_ofList, String.toList_ofList, List.append_assoc, List.singleton_append, whole]
      · rw [String.toList_ofList]
        intro occurs
        exact absurd (List.mem_takeWhile_imp occurs) (by simp)

/-- The parts of two texts around a separator are the parts of both. -/
theorem split_append (before after : String) (sep : Char) :
    split (before ++ String.singleton sep ++ after) sep = split before sep ++ split after sep := by
  rw [split, String.toList_append, String.toList_append, String.toList_singleton, List.append_assoc,
    List.singleton_append, List.splitOn, List.splitOnP_append_cons _ _ (p := fun c => c == sep)
      (beq_self_eq_true sep), List.map_append]
  rfl

theorem split_ne_nil (s : String) (sep : Char) : split s sep ≠ [] := by
  rw [split, Ne, List.map_eq_nil_iff]
  exact List.splitOn_ne_nil sep _

/-- A text is determined by its parts. -/
theorem split_inj {s t : String} {sep : Char} (same : split s sep = split t sep) : s = t := by
  have parts : s.toList.splitOn sep = t.toList.splitOn sep :=
    (List.map_inj_right fun _ _ => String.ofList_inj.mp).mp same
  have whole := congrArg (List.intercalate [sep]) parts
  rw [List.intercalate_splitOn, List.intercalate_splitOn] at whole
  exact String.toList_inj.mp whole

/-- Trimming the end stops at the last character that is no separator. -/
theorem trimEnd_append {before after : List Char} {sep : Char} (stops : ∃ c ∈ after, c ≠ sep) :
    ((before ++ after).reverse.dropWhile fun c => c == sep).reverse =
      before ++ (after.reverse.dropWhile fun c => c == sep).reverse := by
  have left : ((after.reverse.dropWhile fun c => c == sep).isEmpty = true) = False := by
    rw [eq_iff_iff, iff_false, List.isEmpty_iff, List.dropWhile_eq_nil_iff]
    intro all
    obtain ⟨c, member, different⟩ := stops
    exact different (eq_of_beq (all c (List.mem_reverse.mpr member)))
  rw [List.reverse_append, List.dropWhile_append, if_neg (left ▸ not_false), List.reverse_append,
    List.reverse_reverse]

/-- Separators at the end are trimmed altogether. -/
theorem trimEnd_separators {before after : List Char} {sep : Char} (all : ∀ c ∈ after, c = sep) :
    ((before ++ after).reverse.dropWhile fun c => c == sep).reverse =
      (before.reverse.dropWhile fun c => c == sep).reverse := by
  have nothing : (after.reverse.dropWhile fun c => c == sep) = [] := by
    rw [List.dropWhile_eq_nil_iff]
    intro c member
    exact beq_iff_eq.mpr (all c (List.mem_reverse.mp member))
  rw [List.reverse_append, List.dropWhile_append, nothing]
  rfl

end MiniCloud.Library.Text
