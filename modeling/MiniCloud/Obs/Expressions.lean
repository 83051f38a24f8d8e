import Mathlib.Algebra.Ring.Int.Defs
import Mathlib.Data.List.Infix
import MiniCloud.Library.Words
import MiniCloud.Obs.Alerts

/-!
# Alert expressions

An expression is a metric name, perhaps a block of labels, an operator and a number, with
spaces around the operator.  The scanner passes over the block, whatever is in it, and
finds the operator; but the text in front of the operator, the block included, is taken
for the name.  The characters of the texts here are those of Unicode.
-/

namespace MiniCloud.Obs

open MiniCloud.Library
open MiniCloud.Library.Text (trimBoth_append trimBoth_prepend)

/-! ## Spaces -/

/-- The white space of Unicode, `unicode.IsSpace`. -/
def isSpace (c : Char) : Bool :=
  [0x09, 0x0a, 0x0b, 0x0c, 0x0d, 0x20, 0x85, 0xa0, 0x1680, 0x2028, 0x2029, 0x202f, 0x205f,
    0x3000].contains c.toNat || (0x2000 ≤ c.toNat && c.toNat ≤ 0x200a)

/-- `strings.TrimSpace`. -/
def trimSpace (s : String) : String := Text.trimBoth isSpace s

/-- Nothing but spaces. -/
abbrev Blank (s : String) : Prop := Text.Blank isSpace s

/-! ## The parts of an expression -/

def operatorChars : List Char := ['>', '<', '=', '!']

/-- A metric name or a numeral: no spaces, braces or characters of operators. -/
structure PlainText (s : String) : Prop where
  noSpace : ∀ c ∈ s.toList, isSpace c = false
  noBrace : '{' ∉ s.toList
  noClosing : '}' ∉ s.toList
  noOperator : ∀ c ∈ s.toList, c ∉ operatorChars

/-- The characters of a plain text, one by one. -/
theorem plainText_of_all {s : String}
    (plain : s.toList.all (fun c => !isSpace c && c != '{' && c != '}' &&
      !operatorChars.contains c) = true) : PlainText s := by
  have chars {c : Char} (member : c ∈ s.toList) :
      isSpace c = false ∧ c ≠ '{' ∧ c ≠ '}' ∧ c ∉ operatorChars := by
    have each := List.all_eq_true.mp plain c member
    simpa only [Bool.and_eq_true, Bool.not_eq_true', bne_iff_ne, List.contains_eq_mem,
      decide_eq_false_iff_not, and_assoc] using each
  exact ⟨fun c member => (chars member).1, fun member => (chars member).2.1 rfl,
    fun member => (chars member).2.2.1 rfl, fun c member => (chars member).2.2.2⟩

/-- The text of an optional block of labels. -/
def labelBlock : Option String → String
  | none => ""
  | some labels => String.ofList ('{' :: (labels.toList ++ ['}']))

/-- The text of an expression. -/
def render (name : String) (labels : Option String) (before : String) (op : Op) (after : String)
    (numeral : String) : String :=
  name ++ labelBlock labels ++ before ++ op.text ++ (after ++ numeral)

theorem PlainText.trimmed {s : String} (plain : PlainText s) : Text.Trimmed isSpace s :=
  ⟨fun c isFirst => plain.noSpace c (List.mem_of_head? isFirst),
    fun c isLast => plain.noSpace c (List.mem_of_getLast? isLast)⟩

theorem trimmed_block {name : String} (plain : PlainText name) (labels : Option String) :
    Text.Trimmed isSpace (name ++ labelBlock labels) := by
  cases labels with
  | none =>
      rw [labelBlock, String.append_empty]
      exact plain.trimmed
  | some labels =>
      rw [labelBlock]
      constructor
      · intro c isFirst
        rw [String.toList_append, String.toList_ofList] at isFirst
        cases chars : name.toList with
        | nil =>
            rw [chars] at isFirst
            cases isFirst
            decide
        | cons first rest =>
            rw [chars] at isFirst
            cases isFirst
            exact plain.noSpace _ (by rw [chars]; exact List.mem_cons_self)
      · intro c isLast
        rw [String.toList_append, String.toList_ofList, ← List.cons_append, ← List.append_assoc,
          List.getLast?_concat] at isLast
        cases isLast
        decide

/-! ## Scanning -/

theorem indexFrom_short {op chars : List Char} (short : chars.length < op.length) (inside : Bool)
    (i : Nat) : indexFrom op inside i chars = none := by
  cases chars with
  | nil => rfl
  | cons c rest => rw [indexFrom, if_pos short]

theorem text_head (op : Op) : ∃ first rest, op.text.toList = first :: rest ∧ first ∈ operatorChars := by
  cases op with
  | ge => exact ⟨'>', ['='], rfl, by decide⟩
  | le => exact ⟨'<', ['='], rfl, by decide⟩
  | eq => exact ⟨'=', ['='], rfl, by decide⟩
  | ne => exact ⟨'!', ['='], rfl, by decide⟩
  | gt => exact ⟨'>', [], rfl, by decide⟩
  | lt => exact ⟨'<', [], rfl, by decide⟩

/-- Characters that are no braces and belong to no operator are passed over. -/
theorem indexFrom_plain (op : Op) {front : List Char} (noBrace : '{' ∉ front)
    (noOperator : ∀ c ∈ front, c ∉ operatorChars) (rest : List Char) (i : Nat) :
    indexFrom op.text.toList false i (front ++ rest) =
      indexFrom op.text.toList false (i + front.length) rest := by
  obtain ⟨first, more, isText, isOperator⟩ := text_head op
  induction front generalizing i with
  | nil => rfl
  | cons c front ih =>
      have later := ih (fun member => noBrace (List.mem_cons_of_mem _ member))
        (fun c member => noOperator c (List.mem_cons_of_mem _ member)) (i + 1)
      have notBrace : c ≠ '{' := fun same => noBrace (same ▸ List.mem_cons_self)
      have notFirst : first ≠ c := fun same =>
        noOperator c List.mem_cons_self (same ▸ isOperator)
      have notHere : op.text.toList.isPrefixOf (c :: (front ++ rest)) = false := by
        rw [isText, List.isPrefixOf_cons_cons, beq_eq_false_iff_ne.mpr notFirst, Bool.false_and]
      rw [List.cons_append, indexFrom]
      by_cases short : (c :: (front ++ rest)).length < op.text.toList.length
      · rw [if_pos short]
        refine (indexFrom_short ?_ _ _).symm
        rw [List.length_cons, List.length_append] at short
        omega
      · simp only [if_neg short, if_neg notBrace, notHere, Bool.false_eq_true, if_false]
        rw [later, List.length_cons, Nat.add_assoc, Nat.add_comm 1]

/-- A block of labels is passed over. -/
theorem indexFrom_inside (op : Op) {labels : List Char} (closed : '}' ∉ labels) (rest : List Char)
    (i : Nat) : indexFrom op.text.toList true i (labels ++ '}' :: rest) =
      indexFrom op.text.toList false (i + labels.length + 1) rest := by
  induction labels generalizing i with
  | nil =>
      rw [List.nil_append, indexFrom]
      split
      · rename_i short
        refine (indexFrom_short ?_ _ _).symm
        rw [List.length_cons] at short
        omega
      · rfl
  | cons c labels ih =>
      have notClosing : decide (c ≠ '}') = true :=
        decide_eq_true fun same => closed (same ▸ List.mem_cons_self)
      have later := ih (fun member => closed (List.mem_cons_of_mem _ member)) (i + 1)
      rw [List.cons_append, indexFrom]
      split
      · rename_i short
        refine (indexFrom_short ?_ _ _).symm
        rw [List.length_cons, List.length_append, List.length_cons] at short
        omega
      · rw [if_pos rfl, notClosing, later, List.length_cons]
        congr 1
        omega

theorem indexFrom_block (op : Op) {labels : Option String}
    (closed : ∀ inner ∈ labels, '}' ∉ inner.toList) (rest : List Char) (i : Nat) :
    indexFrom op.text.toList false i ((labelBlock labels).toList ++ rest) =
      indexFrom op.text.toList false (i + (labelBlock labels).toList.length) rest := by
  cases labels with
  | none => rfl
  | some inner =>
      have passed := indexFrom_inside op (closed inner rfl) rest (i + 1)
      rw [labelBlock, String.toList_ofList, List.cons_append, List.append_assoc,
        List.singleton_append, indexFrom]
      split
      · rename_i short
        refine (indexFrom_short ?_ _ _).symm
        rw [List.length_cons, List.length_append, List.length_cons] at short
        omega
      · rw [if_neg Bool.false_ne_true, if_pos rfl, passed, List.length_cons, List.length_append,
          List.length_singleton]
        congr 1
        omega

/-- A text without braces in which the operator does not occur. -/
theorem indexFrom_none {op chars : List Char} (noBrace : '{' ∉ chars) (absent : ¬op <:+: chars)
    (i : Nat) : indexFrom op false i chars = none := by
  induction chars generalizing i with
  | nil => rfl
  | cons c rest ih =>
      have notBrace : c ≠ '{' := fun same => noBrace (same ▸ List.mem_cons_self)
      have notHere : op.isPrefixOf (c :: rest) = false := by
        rw [Bool.eq_false_iff]
        intro begins
        exact absent (List.isPrefixOf_iff_prefix.mp begins).isInfix
      have later := ih (fun member => noBrace (List.mem_cons_of_mem _ member))
        (fun inside => absent (inside.trans (List.suffix_cons c rest).isInfix)) (i + 1)
      rw [indexFrom]
      simp only [if_neg notBrace, notHere, Bool.false_eq_true, if_false, later, ite_self]

/-- What consists of characters that the second part does not have lies in the first part. -/
theorem infix_of_append {part first second : List Char} (given : part ≠ [])
    (apart : ∀ c ∈ part, c ∉ second) (inside : part <:+: first ++ second) : part <:+: first := by
  obtain ⟨before, behind, whole⟩ := inside
  rcases List.append_eq_append_iff.mp whole with ⟨more, isFirst, _⟩ | ⟨more, isFront, isSecond⟩
  · exact ⟨before, more, isFirst.symm⟩
  · by_cases none : more = []
    · rw [none, List.append_nil] at isFront
      exact ⟨before, [], by rw [List.append_nil, isFront]⟩
    · -- otherwise the last character of the part is one of the second part
      have last : (before ++ part).getLast? = (first ++ more).getLast? := congrArg _ isFront
      rw [List.getLast?_append_of_ne_nil _ given, List.getLast?_append_of_ne_nil _ none] at last
      obtain ⟨c, isLast⟩ := Option.ne_none_iff_exists'.mp (List.getLast?_eq_none_iff.not.mpr given)
      refine absurd ?_ (apart c (List.mem_of_getLast? isLast))
      rw [isSecond]
      exact List.mem_append_left _ (List.mem_of_getLast? (last ▸ isLast))

section Operators

variable {rest : List Char}

theorem indexFrom_here (op : Op) (rest : List Char) (i : Nat) :
    indexFrom op.text.toList false i (op.text.toList ++ rest) = some i := by
  obtain ⟨first, more, isText, isOperator⟩ := text_head op
  have notBrace : first ≠ '{' := by
    rintro rfl
    revert isOperator
    decide
  have here : (first :: more).isPrefixOf (first :: (more ++ rest)) = true :=
    List.isPrefixOf_iff_prefix.mpr ⟨rest, rfl⟩
  rw [isText, List.cons_append, indexFrom, if_neg (by simp), if_neg Bool.false_ne_true,
    if_neg notBrace, if_pos here]

/-- An operator whose text is no part of another one is not found where the other one is. -/
theorem indexFrom_other {op other : Op} (noBrace : '{' ∉ rest)
    (noOperator : ∀ c ∈ rest, c ∉ operatorChars) (apart : ¬other.text.toList <:+: op.text.toList)
    (i : Nat) : indexFrom other.text.toList false i (op.text.toList ++ rest) = none := by
  have texts (op : Op) : op.text.toList.all operatorChars.contains = true := by
    cases op with
    | ge | le | eq | ne | gt | lt => rfl
  have all (op : Op) : ∀ c ∈ op.text.toList, c ∈ operatorChars := fun c member =>
    List.contains_iff_mem.mp (List.all_eq_true.mp (texts op) c member)
  refine indexFrom_none ?_ ?_ i
  · rw [List.mem_append]
    rintro (inText | inRest)
    · exact absurd (all op _ inText) (by decide)
    · exact noBrace inRest
  · intro inside
    obtain ⟨first, more, isText, _⟩ := text_head other
    refine apart (infix_of_append (by rw [isText]; exact List.cons_ne_nil _ _) ?_ inside)
    intro c member inRest
    exact noOperator c inRest (all other c member)

/-- No operator is part of one that is tried after it. -/
theorem tried_before (op : Op) : ∃ before after, Op.all = before ++ op :: after ∧
    ∀ other ∈ before, ¬other.text.toList <:+: op.text.toList := by
  cases op with
  | ge => exact ⟨[], [.le, .eq, .ne, .gt, .lt], rfl, by decide⟩
  | le => exact ⟨[.ge], [.eq, .ne, .gt, .lt], rfl, by decide⟩
  | eq => exact ⟨[.ge, .le], [.ne, .gt, .lt], rfl, by decide⟩
  | ne => exact ⟨[.ge, .le, .eq], [.gt, .lt], rfl, by decide⟩
  | gt => exact ⟨[.ge, .le, .eq, .ne], [.lt], rfl, by decide⟩
  | lt => exact ⟨[.ge, .le, .eq, .ne, .gt], [], rfl, by decide⟩

/-- So the operator itself is the first one that is found. -/
theorem findSome_text (op : Op) (noBrace : '{' ∉ rest)
    (noOperator : ∀ c ∈ rest, c ∉ operatorChars) (i : Nat) :
    (Op.all.findSome? fun other =>
      (indexFrom other.text.toList false i (op.text.toList ++ rest)).map fun j => (other, j)) =
      some (op, i) := by
  obtain ⟨before, after, order, apart⟩ := tried_before op
  have misses : (before.findSome? fun other =>
      (indexFrom other.text.toList false i (op.text.toList ++ rest)).map fun j => (other, j)) =
      none := by
    rw [List.findSome?_eq_none_iff]
    intro other member
    rw [indexFrom_other noBrace noOperator (apart other member) i, Option.map_none]
  rw [order, List.findSome?_append, misses, Option.none_or, List.findSome?_cons,
    indexFrom_here op rest i, Option.map_some]

end Operators

/-! ## Expressions -/

/-- The sum over the series with the name, and whether there is one. -/
def seriesSum {Value : Type} [Zero Value] [Add Value] (name : String) (m : Metrics Value) :
    Value × Bool :=
  let found := m.entries.filter fun series => series.2.name = name
  (found.foldl (fun sum series => sum + series.2.value) 0, !found.isEmpty)

section Split

variable {Value : Type} {sc : Scanning Value} {name before after numeral : String}
  {labels : Option String} {v : Value}

/-- Spaces have no braces and no characters of operators. -/
theorem Blank.plain {s : String} (blank : Blank s) :
    '{' ∉ s.toList ∧ ∀ c ∈ s.toList, c ∉ operatorChars := by
  constructor
  · intro member
    exact absurd (blank _ member) (by decide)
  · intro c member isOperator
    have none : operatorChars.all (fun c => !isSpace c) = true := by decide
    have notSpace := List.all_eq_true.mp none c isOperator
    rw [blank c member] at notSpace
    cases notSpace

/-- The name that is found is the text in front of the operator, with the block of labels. -/
theorem splitExpr_render (trims : sc.trimSpace = trimSpace) (op : Op) (plain : PlainText name)
    (closed : ∀ inner ∈ labels, '}' ∉ inner.toList) (blankBefore : Blank before)
    (blankAfter : Blank after) (plainNumeral : PlainText numeral)
    (reads : sc.sscanf numeral = some v) :
    splitExpr sc (render name labels before op after numeral) =
      some (name ++ labelBlock labels, op, v) := by
  have tail : '{' ∉ (after ++ numeral).toList ∧ ∀ c ∈ (after ++ numeral).toList, c ∉ operatorChars := by
    rw [String.toList_append]
    constructor
    · rw [List.mem_append]
      rintro (inBlank | inNumeral)
      · exact blankAfter.plain.1 inBlank
      · exact plainNumeral.noBrace inNumeral
    · intro c member
      rcases List.mem_append.mp member with inBlank | inNumeral
      · exact blankAfter.plain.2 c inBlank
      · exact plainNumeral.noOperator c inNumeral
  -- the name, the block and the spaces are passed over by every search
  have passed (other : Op) : indexOutside (render name labels before op after numeral) other.text =
      indexFrom other.text.toList false (name ++ labelBlock labels ++ before).toList.length
        (op.text.toList ++ (after ++ numeral).toList) := by
    rw [indexOutside, render]
    simp only [String.toList_append, List.append_assoc]
    rw [indexFrom_plain other plain.noBrace plain.noOperator, indexFrom_block other closed,
      indexFrom_plain other blankBefore.plain.1 blankBefore.plain.2]
    congr 1
    simp only [List.length_append]
    omega
  have found := findSome_text op tail.1 tail.2 (name ++ labelBlock labels ++ before).toList.length
  have whole : (render name labels before op after numeral).toList =
      (name ++ labelBlock labels ++ before).toList ++ (op.text.toList ++ (after ++ numeral).toList) := by
    rw [render, String.toList_append, String.toList_append, List.append_assoc]
  unfold splitExpr
  simp only [passed, found, whole]
  rw [List.take_left, ← List.drop_drop, List.drop_left, List.drop_left, String.ofList_toList,
    String.ofList_toList, trims, trimSpace, trimSpace,
    trimBoth_prepend blankAfter plainNumeral.trimmed, reads,
    trimBoth_append (trimmed_block plain labels) blankBefore]

/-- An expression is split into the bare name, the operator and the number, and the series
of the metric are summed, exactly if it has no block of labels. -/
theorem expression_parses_iff [Zero Value] [Add Value] (trims : sc.trimSpace = trimSpace) (op : Op)
    (plain : PlainText name) (closed : ∀ inner ∈ labels, '}' ∉ inner.toList)
    (blankBefore : Blank before) (blankAfter : Blank after) (plainNumeral : PlainText numeral)
    (reads : sc.sscanf numeral = some v) :
    (splitExpr sc (render name labels before op after numeral) = some (name, op, v) ∧
        ∀ m, evalExpr sc (render name labels before op after numeral) m = seriesSum name m) ↔
      labels = none := by
  have parsed := splitExpr_render trims op plain closed blankBefore blankAfter plainNumeral reads
  constructor
  · rintro ⟨split, _⟩
    rw [parsed, Option.some.injEq, Prod.mk.injEq] at split
    have sameChars := congrArg String.toList split.1
    rw [String.toList_append, List.append_right_eq_self] at sameChars
    cases labels with
    | none => rfl
    | some inner =>
        rw [labelBlock, String.toList_ofList] at sameChars
        cases sameChars
  · rintro rfl
    rw [labelBlock, String.append_empty] at parsed
    refine ⟨parsed, fun m => ?_⟩
    unfold evalExpr
    rw [parsed]
    rfl

end Split

/-- A scanner for numerals of digits. -/
def decimalScanning : Scanning Int where
  trimSpace := trimSpace
  sscanf := fun text =>
    if text ≠ "" ∧ text.toList.all Char.isDigit then
      some (text.toList.foldl (fun n c => 10 * n + (c.toNat - 48)) 0)
    else none

theorem expression_parses_at_least :
    splitExpr decimalScanning (render "cpu" none " " .ge " " "80") = some ("cpu", .ge, 80) ∧
      evalExpr decimalScanning (render "cpu" none " " .ge " " "80") (set ∅ "cpu" 95 ∅) =
        (95, true) := by
  have plain : PlainText "cpu" := plainText_of_all (by decide)
  have plainNumeral : PlainText "80" := plainText_of_all (by decide)
  have parses := (@expression_parses_iff Int decimalScanning "cpu" " " " " "80" none 80 _ _ rfl .ge
    plain (fun _ none => by cases none) (by decide) (by decide) plainNumeral (by decide)).mpr rfl
  exact ⟨parses.1, (parses.2 _).trans (by decide +kernel)⟩

/-- With a block of labels there is no series with the name that is found. -/
theorem expression_keeps_labels :
    render "cpu" (some "host=\"a\"") " " .gt " " "80" = "cpu\x7bhost=\"a\"\x7d > 80" ∧
      splitExpr decimalScanning (render "cpu" (some "host=\"a\"") " " .gt " " "80") =
        some ("cpu\x7bhost=\"a\"\x7d", .gt, 80) ∧
      evalExpr decimalScanning (render "cpu" (some "host=\"a\"") " " .gt " " "80")
        (set ∅ "cpu" 95 (AList.singleton "host" "a")) = (0, false) := by
  decide +kernel

end MiniCloud.Obs
