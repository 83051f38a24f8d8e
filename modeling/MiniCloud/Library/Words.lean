import Mathlib.Algebra.Ring.Nat
import Mathlib.Data.List.Infix
import MiniCloud.Library.Text

/-!
# White space and words

White space is found byte by byte: no character of a valid text contains the bytes of a
white space character, so that the bytes tell the fields of a text.  Words joined with
single spaces are what is left when a space behind each of them is trimmed at the end, and
they are the fields of the text.  A part without a space is found in one of the words.
-/

namespace MiniCloud.Library.Text

def contains (s sub : String) : Bool := decide (sub.toList <:+: s.toList)

/-- The characters of ASCII that count as white space. -/
def isSpace (c : Char) : Bool := [9, 10, 11, 12, 13, 32].contains c.toNat

/-- The bytes of the white space characters beyond ASCII. -/
def wideSpaces : List (List Nat) :=
  [[0xC2, 0x85], [0xC2, 0xA0], [0xE1, 0x9A, 0x80]] ++
    (List.range 11).map (fun k => [0xE2, 0x80, 0x80 + k]) ++
    [[0xE2, 0x80, 0xA8], [0xE2, 0x80, 0xA9], [0xE2, 0x80, 0xAF], [0xE2, 0x81, 0x9F],
      [0xE3, 0x80, 0x80]]

/-- The number of bytes of the white space character in front, 0 if there is none. -/
def spaceWidth : List Char → Nat
  | [] => 0
  | c :: rest =>
      if isSpace c then 1
      else
        match wideSpaces.find? fun bytes => bytes.isPrefixOf ((c :: rest).map Char.toNat) with
        | some bytes => bytes.length
        | none => 0

/-- How many fields follow: whether one has begun, and how many bytes of a white space
character are still to be passed. -/
def countFieldsFrom : Bool → Nat → List Char → Nat
  | inside, _, [] => if inside then 1 else 0
  | inside, skip + 1, _ :: rest => countFieldsFrom inside skip rest
  | inside, 0, c :: rest =>
      match spaceWidth (c :: rest) with
      | 0 => countFieldsFrom true 0 rest
      | width + 1 => (if inside then 1 else 0) + countFieldsFrom false width rest

/-- The number of fields between white space. -/
def countFields (s : String) : Nat := countFieldsFrom false 0 s.toList

/-! ## Trimming -/

section Trimming

variable (space : Char → Bool)

/-- The text without the spaces at its ends, for a kind of spaces. -/
def trimBoth (s : String) : String :=
  String.ofList ((s.toList.dropWhile space).reverse.dropWhile space).reverse

/-- Nothing but spaces. -/
def Blank (s : String) : Prop := ∀ c ∈ s.toList, space c = true

instance (s : String) : Decidable (Blank space s) :=
  List.decidableBAll (fun c => space c = true) s.toList

/-- The text neither begins nor ends with a space. -/
structure Trimmed (s : String) : Prop where
  first : ∀ c ∈ s.toList.head?, space c = false
  last : ∀ c ∈ s.toList.getLast?, space c = false

variable {space}

theorem dropWhile_trimmed {chars : List Char} (stops : ∀ c ∈ chars.head?, space c = false) :
    chars.dropWhile space = chars := by
  cases chars with
  | nil => rfl
  | cons c rest => rw [List.dropWhile_cons, stops c rfl, if_neg Bool.false_ne_true]

theorem trimBoth_append {core after : String} (trimmed : Trimmed space core)
    (blank : Blank space after) : trimBoth space (core ++ after) = core := by
  have ending : ∀ c ∈ after.toList.reverse, space c = true := fun c member =>
    blank c (List.mem_reverse.mp member)
  have reversed : ∀ c ∈ core.toList.reverse.head?, space c = false := by
    rw [List.head?_reverse]
    exact trimmed.last
  rw [trimBoth, String.toList_append]
  cases chars : core.toList with
  | nil =>
      have nothing : after.toList.dropWhile space = [] := List.dropWhile_eq_nil_iff.mpr blank
      rw [List.nil_append, nothing, String.toList_eq_nil_iff.mp chars]
      rfl
  | cons c rest =>
      have starts : space c = false := trimmed.first c (by rw [chars]; rfl)
      rw [List.cons_append, List.dropWhile_cons, starts, if_neg Bool.false_ne_true,
        ← List.cons_append, ← chars, List.reverse_append, List.dropWhile_append_of_pos ending,
        dropWhile_trimmed reversed, List.reverse_reverse, String.ofList_toList]

theorem trimBoth_prepend {before core : String} (blank : Blank space before)
    (trimmed : Trimmed space core) : trimBoth space (before ++ core) = core := by
  have none : Blank space "" := fun c member => by cases member
  have alone := trimBoth_append trimmed none
  rw [String.append_empty] at alone
  rw [trimBoth, String.toList_append, List.dropWhile_append_of_pos blank]
  exact alone

end Trimming

/-- The text without white space at its ends, for a text of ASCII characters. -/
def trimSpace (s : String) : String := trimBoth isSpace s

/-! ## Words -/

/-- The text is not empty and has no white space. -/
def isWord (w : String) : Bool := !w.toList.isEmpty && w.toList.all fun c => !isSpace c

/-- The words, with a space behind each. -/
def spaced (words : List String) : String := words.foldl (fun out w => out ++ w ++ " ") ""

/-- Neither end of the text is white space. -/
structure Framed (s : String) : Prop where
  first : ∃ c, s.toList.head? = some c ∧ isSpace c = false
  last : ∃ c, s.toList.getLast? = some c ∧ isSpace c = false

theorem Framed.trimmed {s : String} (framed : Framed s) : Trimmed isSpace s := by
  obtain ⟨c, isFirst, plain⟩ := framed.first
  obtain ⟨d, isLast, plain'⟩ := framed.last
  refine ⟨fun a first => ?_, fun a last => ?_⟩
  · cases isFirst.symm.trans first
    exact plain
  · cases isLast.symm.trans last
    exact plain'

theorem framed_word {w : String} (word : isWord w = true) : Framed w := by
  obtain ⟨given, plain⟩ := Bool.and_eq_true_iff.mp word
  have isPlain : ∀ c ∈ w.toList, isSpace c = false := by
    intro c member
    simpa using List.all_eq_true.mp plain c member
  cases text : w.toList with
  | nil =>
      rw [text] at given
      cases given
  | cons c rest =>
      rw [text] at isPlain
      refine ⟨⟨c, by rw [text]; rfl, isPlain c List.mem_cons_self⟩, ?_⟩
      refine ⟨(c :: rest).getLast (List.cons_ne_nil c rest), ?_, isPlain _ (List.getLast_mem _)⟩
      rw [text, List.getLast?_eq_some_getLast]

theorem Framed.append {s t : String} (first : Framed s) (second : Framed t) (between : String) :
    Framed (s ++ between ++ t) := by
  obtain ⟨c, isFirst, plain⟩ := first.first
  obtain ⟨d, isLast, plain'⟩ := second.last
  refine ⟨⟨c, ?_, plain⟩, ⟨d, ?_, plain'⟩⟩
  · rw [String.toList_append, String.toList_append, List.append_assoc, List.head?_append, isFirst]
    rfl
  · rw [String.toList_append, List.getLast?_append, isLast]
    rfl

theorem framed_intercalate {words : List String} (given : words ≠ [])
    (areWords : ∀ w ∈ words, isWord w = true) : Framed (" ".intercalate words) := by
  induction words with
  | nil => exact absurd rfl given
  | cons w rest ih =>
      have first := framed_word (areWords w List.mem_cons_self)
      cases rest with
      | nil =>
          rw [String.intercalate_singleton]
          exact first
      | cons v rest =>
          rw [String.intercalate_cons_cons]
          exact first.append (ih (List.cons_ne_nil v rest)
            fun u member => areWords u (List.mem_cons_of_mem _ member)) " "

theorem spaced_concat (words : List String) (w : String) :
    spaced (words ++ [w]) = spaced words ++ w ++ " " :=
  List.foldl_concat ..

theorem spaced_cons (w : String) (words : List String) :
    spaced (w :: words) = w ++ " " ++ spaced words := by
  have accumulated : ∀ (words : List String) (out : String),
      words.foldl (fun out w => out ++ w ++ " ") out = out ++ spaced words := by
    intro words
    induction words using List.reverseRecOn with
    | nil => exact fun out => String.append_empty.symm
    | append_singleton words w ih =>
        intro out
        rw [List.foldl_concat, ih, spaced_concat]
        simp only [String.append_assoc]
  rw [spaced, List.foldl_cons, accumulated, String.empty_append]

theorem length_spaced (words : List String) :
    (spaced words).toList.length = (words.map fun w => w.toList.length + 1).sum := by
  induction words with
  | nil => rfl
  | cons w words ih =>
      have space : " ".toList.length = 1 := by decide
      rw [spaced_cons, String.toList_append, String.toList_append, List.length_append,
        List.length_append, ih, space, List.map_cons, List.sum_cons]

theorem spaced_eq_intercalate {words : List String} (given : words ≠ []) :
    spaced words = " ".intercalate words ++ " " := by
  induction words with
  | nil => exact absurd rfl given
  | cons w rest ih =>
      rw [spaced_cons]
      cases rest with
      | nil => simp [spaced]
      | cons v rest =>
          rw [ih (List.cons_ne_nil v rest), String.intercalate_cons_cons]
          simp only [String.append_assoc]

/-- Trimming the space behind the last word leaves the words joined with spaces. -/
theorem trimSpace_spaced {words : List String} (given : words ≠ [])
    (areWords : ∀ w ∈ words, isWord w = true) : trimSpace (spaced words) = " ".intercalate words := by
  rw [spaced_eq_intercalate given]
  exact trimBoth_append (framed_intercalate given areWords).trimmed (by decide)

/-! ## Parts of words -/

/-- A part without the separator lies on one side of it. -/
theorem infix_append_cons_iff {Item : Type*} {part before after : List Item} {separator : Item}
    (without : separator ∉ part) :
    part <:+: before ++ separator :: after ↔ part <:+: before ∨ part <:+: after := by
  constructor
  · intro found
    rcases List.infix_append_iff_ne_nil.mp found with left | right | ⟨_, tail, _, nonempty, rfl, _, across⟩
    · exact Or.inl left
    · rcases List.infix_cons_iff.mp right with atFront | later
      · cases part with
        | nil => exact Or.inl List.nil_infix
        | cons c part =>
            obtain ⟨rfl, _⟩ := List.cons_prefix_cons.mp atFront
            exact absurd List.mem_cons_self without
      · exact Or.inr later
    · cases tail with
      | nil => exact absurd rfl nonempty
      | cons c tail =>
          obtain ⟨rfl, _⟩ := List.cons_prefix_cons.mp across
          exact absurd (List.mem_append_right _ List.mem_cons_self) without
  · rintro (left | right)
    · exact left.trans (List.prefix_append _ _).isInfix
    · exact right.trans ((List.suffix_cons _ _).trans (List.suffix_append _ _)).isInfix

theorem contains_append_space {part : String} (without : ' ' ∉ part.toList) (s t : String) :
    contains (s ++ " " ++ t) part = (contains s part || contains t part) := by
  have space : " ".toList = [' '] := by decide
  unfold contains
  rw [String.toList_append, String.toList_append, space, List.append_assoc, List.singleton_append,
    ← Bool.decide_or]
  exact decide_eq_decide.mpr (infix_append_cons_iff without)

/-! ## Counting words -/

/-- The text is not empty, and has only characters of ASCII other than white space. -/
def isPlainWord (w : String) : Bool :=
  !w.toList.isEmpty && w.toList.all fun c => !isSpace c && decide (c.toNat < 128)

theorem spaceWidth_of_plain {c : Char} (plain : isSpace c = false) (ascii : c.toNat < 128)
    (rest : List Char) : spaceWidth (c :: rest) = 0 := by
  have high : wideSpaces.all (fun bytes => bytes.head?.any fun b => decide (128 ≤ b)) = true := by
    decide
  have none : wideSpaces.find? (fun bytes => bytes.isPrefixOf ((c :: rest).map Char.toNat)) = none := by
    refine List.find?_eq_none.mpr fun bytes member => ?_
    have first := List.all_eq_true.mp high bytes member
    cases bytes with
    | nil => cases first
    | cons b bytes =>
        have above : 128 ≤ b := of_decide_eq_true first
        have other : (b == c.toNat) = false := by
          rw [beq_eq_false_iff_ne]
          omega
        simp [List.isPrefixOf, other]
  rw [spaceWidth, plain, none]
  rfl

theorem countFieldsFrom_plain {text : List Char} (given : text ≠ [])
    (plain : ∀ c ∈ text, isSpace c = false ∧ c.toNat < 128) (inside : Bool) (rest : List Char) :
    countFieldsFrom inside 0 (text ++ rest) = countFieldsFrom true 0 rest := by
  induction text generalizing inside with
  | nil => exact absurd rfl given
  | cons c text ih =>
      obtain ⟨notSpace, ascii⟩ := plain c List.mem_cons_self
      rw [List.cons_append, countFieldsFrom, spaceWidth_of_plain notSpace ascii]
      cases text with
      | nil => rfl
      | cons d text =>
          exact ih (List.cons_ne_nil d text)
            (fun e member => plain e (List.mem_cons_of_mem c member)) true

theorem plain_of_isPlainWord {w : String} (word : isPlainWord w = true) :
    w.toList ≠ [] ∧ ∀ c ∈ w.toList, isSpace c = false ∧ c.toNat < 128 := by
  obtain ⟨given, plain⟩ := Bool.and_eq_true_iff.mp word
  refine ⟨?_, fun c member => ?_⟩
  · intro empty
    rw [empty] at given
    cases given
  · obtain ⟨notSpace, ascii⟩ := Bool.and_eq_true_iff.mp (List.all_eq_true.mp plain c member)
    exact ⟨by simpa using notSpace, of_decide_eq_true ascii⟩

/-- Words joined with spaces are the fields of the text. -/
theorem countFields_intercalate {words : List String} (given : words ≠ [])
    (areWords : ∀ w ∈ words, isPlainWord w = true) :
    countFields (" ".intercalate words) = words.length := by
  induction words with
  | nil => exact absurd rfl given
  | cons w rest ih =>
      obtain ⟨nonempty, plain⟩ := plain_of_isPlainWord (areWords w List.mem_cons_self)
      cases rest with
      | nil =>
          rw [String.intercalate_singleton, countFields, ← List.append_nil w.toList,
            countFieldsFrom_plain nonempty plain]
          rfl
      | cons v rest =>
          have later := ih (List.cons_ne_nil v rest)
            fun u member => areWords u (List.mem_cons_of_mem w member)
          have space : " ".toList = [' '] := by decide
          rw [String.intercalate_cons_cons, countFields, String.toList_append, String.toList_append,
            space, List.append_assoc, countFieldsFrom_plain nonempty plain, List.singleton_append]
          rw [countFields] at later
          rw [List.length_cons, ← later, Nat.add_comm]
          rfl

end MiniCloud.Library.Text
