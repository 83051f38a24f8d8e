import Mathlib.Data.List.Sort
import MiniCloud.Library.Text

/-!
# Queries of URLs

The encoding of named values as the query of a URL, and its reading, as in the Go package
`net/url`.  Every byte of a name or a value that is no letter, digit or one of `-_.~` is
written as `%` and two digits, a blank as `+`; so no separator of the query occurs in an
encoded text, and the query is read back as the values it was made of.  The bytes of a
text are those of UTF-8.
-/

namespace MiniCloud.Library.Urls

open MiniCloud.Library.Text

/-! ## Texts -/

/-- Letters, digits and `-_.~`. -/
def unreserved (b : UInt8) : Bool :=
  (65 ≤ b && b ≤ 90) || (97 ≤ b && b ≤ 122) || (48 ≤ b && b ≤ 57) ||
    b == 45 || b == 95 || b == 46 || b == 126

def upperHex (k : Nat) : Char := Char.ofNat (if k < 10 then 48 + k else 55 + k)

def escapeByte (b : UInt8) : List Char :=
  if b = 32 then ['+']
  else if unreserved b then [Char.ofNat b.toNat]
  else ['%', upperHex (b.toNat / 16), upperHex (b.toNat % 16)]

def queryEscape (s : String) : String :=
  String.ofList (s.toByteArray.data.toList.flatMap escapeByte)

/-- The value of a hexadecimal digit in either case. -/
def unhex (c : Char) : Option Nat :=
  if '0' ≤ c ∧ c ≤ '9' then some (c.toNat - 48)
  else if 'a' ≤ c ∧ c ≤ 'f' then some (c.toNat - 87)
  else if 'A' ≤ c ∧ c ≤ 'F' then some (c.toNat - 55)
  else none

def unescapeBytes : List Char → Option (List UInt8)
  | [] => some []
  | c :: rest =>
      if c = '%' then
        match rest with
        | high :: low :: rest =>
            (unhex high).bind fun j => (unhex low).bind fun k =>
              (unescapeBytes rest).map fun bytes => UInt8.ofNat (16 * j + k) :: bytes
        | _ => none
      else if c = '+' then (unescapeBytes rest).map fun bytes => 32 :: bytes
      else (unescapeBytes rest).map fun bytes => String.utf8EncodeChar c ++ bytes

/-- Bytes that are no UTF-8 text are not read. -/
def queryUnescape (s : String) : Option String :=
  (unescapeBytes s.toList).bind fun bytes => String.fromUTF8? ⟨bytes.toArray⟩

/-! ## Queries -/

def encodeField (v : String → String) (name : String) : String :=
  queryEscape name ++ "=" ++ queryEscape (v name)

/-- The query with one value for each name, in the order of the names. -/
def encode (names : List String) (v : String → String) : String :=
  String.intercalate "&" ((names.insertionSort fun a b => a ≤ b).map (encodeField v))

/-- A part of a query; one that is empty, has a semicolon or cannot be read is left out. -/
def parseField (part : String) : Option (String × String) :=
  if part = "" ∨ ';' ∈ part.toList then none
  else
    let sides := (cut part '=').getD (part, "")
    (queryUnescape sides.1).bind fun name =>
      (queryUnescape sides.2).map fun value => (name, value)

def parseQuery (query : String) : List (String × String) := (split query '&').filterMap parseField

/-- The first value under the name, empty if there is none. -/
def get (fields : List (String × String)) (name : String) : String :=
  ((fields.find? fun field => field.1 = name).map Prod.snd).getD ""

/-- The part of a URL behind the first question mark. -/
def queryOf (url : String) : String := ((cut url '?').map Prod.snd).getD ""

/-! ## Reading what was escaped -/

theorem unhex_upperHex {k : Nat} (small : k < 16) : unhex (upperHex k) = some k := by
  have all : ∀ k : Fin 16, unhex (upperHex k) = some k.val := by decide
  exact all ⟨k, small⟩

theorem forall_byte {p : UInt8 → Prop} (all : ∀ n : Fin 256, p (UInt8.ofNat n)) (b : UInt8) :
    p b := by
  have isByte := all ⟨b.toNat, b.toNat_lt⟩
  rwa [UInt8.ofNat_toNat] at isByte

/-- An unreserved byte is a character of its own, and none that is read differently. -/
theorem char_of_unreserved (b : UInt8) : unreserved b = true →
    Char.ofNat b.toNat ≠ '%' ∧ Char.ofNat b.toNat ≠ '+' ∧
      String.utf8EncodeChar (Char.ofNat b.toNat) = [b] :=
  forall_byte (p := fun b => unreserved b = true → Char.ofNat b.toNat ≠ '%' ∧
    Char.ofNat b.toNat ≠ '+' ∧ String.utf8EncodeChar (Char.ofNat b.toNat) = [b])
    (by decide +kernel) b

theorem unescapeBytes_escapeByte (b : UInt8) (rest : List Char) :
    unescapeBytes (escapeByte b ++ rest) = (unescapeBytes rest).map fun bytes => b :: bytes := by
  unfold escapeByte
  by_cases blank : b = 32
  · rw [if_pos blank, List.singleton_append, unescapeBytes.eq_def, blank]
    rfl
  rw [if_neg blank]
  by_cases plain : unreserved b = true
  · obtain ⟨notPercent, notPlus, oneByte⟩ := char_of_unreserved b plain
    rw [if_pos plain, List.singleton_append, unescapeBytes.eq_def]
    simp only [if_neg notPercent, if_neg notPlus, oneByte, List.singleton_append]
  · have bound := b.toNat_lt
    rw [if_neg plain, List.cons_append, List.cons_append, List.singleton_append, unescapeBytes,
      if_pos rfl]
    simp only [unhex_upperHex (show b.toNat / 16 < 16 by omega),
      unhex_upperHex (show b.toNat % 16 < 16 by omega), Option.bind_some,
      Nat.div_add_mod, UInt8.ofNat_toNat]

theorem unescapeBytes_flatMap (bytes : List UInt8) :
    unescapeBytes (bytes.flatMap escapeByte) = some bytes := by
  induction bytes with
  | nil => rfl
  | cons b rest ih => rw [List.flatMap_cons, unescapeBytes_escapeByte, ih, Option.map_some]

theorem queryUnescape_queryEscape (s : String) : queryUnescape (queryEscape s) = some s := by
  have valid : (⟨s.toByteArray.data.toList.toArray⟩ : ByteArray) = s.toByteArray := by
    rw [Array.toArray_toList]
  rw [queryUnescape, queryEscape, String.toList_ofList, unescapeBytes_flatMap, Option.bind_some,
    valid, String.fromUTF8?, dif_pos s.isValidUTF8]
  rfl

/-! ## Reading a query -/

/-- The characters of an escaped text. -/
def safe (c : Char) : Bool := c != '&' && c != '=' && c != ';' && c != '?'

theorem safe_escapeByte (b : UInt8) : (escapeByte b).all safe = true :=
  forall_byte (p := fun b => (escapeByte b).all safe = true) (by decide +kernel) b

theorem safe_queryEscape {s : String} {c : Char} (member : c ∈ (queryEscape s).toList) :
    safe c = true := by
  rw [queryEscape, String.toList_ofList] at member
  obtain ⟨b, _, isChar⟩ := List.mem_flatMap.mp member
  exact List.all_eq_true.mp (safe_escapeByte b) c isChar

theorem not_mem_queryEscape {c : Char} (separator : safe c = false) (s : String) :
    c ∉ (queryEscape s).toList := by
  intro member
  rw [safe_queryEscape member] at separator
  cases separator

theorem toList_encodeField (v : String → String) (name : String) :
    (encodeField v name).toList =
      (queryEscape name).toList ++ '=' :: (queryEscape (v name)).toList := by
  rw [encodeField, String.toList_append, String.toList_append, List.append_assoc]
  rfl

theorem not_mem_encodeField {c : Char} (separator : safe c = false) (other : c ≠ '=')
    (v : String → String) (name : String) : c ∉ (encodeField v name).toList := by
  rw [toList_encodeField, List.mem_append, List.mem_cons]
  rintro (member | isEq | member)
  · exact not_mem_queryEscape separator name member
  · exact other isEq
  · exact not_mem_queryEscape separator (v name) member

theorem parseField_encodeField (v : String → String) (name : String) :
    parseField (encodeField v name) = some (name, v name) := by
  have read : ¬(encodeField v name = "" ∨ ';' ∈ (encodeField v name).toList) := by
    rintro (empty | semicolon)
    · have chars := congrArg String.toList empty
      rw [toList_encodeField] at chars
      exact List.append_ne_nil_of_right_ne_nil _ (List.cons_ne_nil _ _) chars
    · exact not_mem_encodeField (by decide) (by decide) v name semicolon
  have sides : cut (encodeField v name) '=' = some (queryEscape name, queryEscape (v name)) := by
    have isSeparator : "=" = String.singleton '=' := rfl
    rw [encodeField, isSeparator]
    exact cut_append (not_mem_queryEscape (by decide) name) _
  rw [parseField, if_neg read, sides]
  simp only [Option.getD_some, queryUnescape_queryEscape, Option.bind_some, Option.map_some]

/-- The fields come back in the order of the names. -/
theorem parseQuery_encode (names : List String) (v : String → String) :
    parseQuery (encode names v) =
      (names.insertionSort fun a b => a ≤ b).map fun name => (name, v name) := by
  unfold parseQuery encode
  generalize names.insertionSort (fun a b => a ≤ b) = sorted
  cases sorted with
  | nil =>
      change (split "" '&').filterMap parseField = []
      decide
  | cons first rest =>
      have parts : split (String.intercalate "&" ((first :: rest).map (encodeField v))) '&' =
          (first :: rest).map (encodeField v) := by
        have plain : ∀ part ∈ ((first :: rest).map (encodeField v)).map String.toList,
            '&' ∉ part := by
          intro part member
          rw [List.map_map] at member
          obtain ⟨name, _, rfl⟩ := List.mem_map.mp member
          exact not_mem_encodeField (by decide) (by decide) v name
        rw [split, String.toList_intercalate]
        refine (congrArg (List.map String.ofList)
          (List.splitOn_intercalate '&' plain (List.cons_ne_nil _ _))).trans ?_
        rw [List.map_map]
        exact (List.map_congr_left fun part _ => String.ofList_toList).trans (List.map_id _)
      rw [parts, List.filterMap_map]
      refine (List.filterMap_congr fun name _ => parseField_encodeField v name).trans ?_
      exact congrFun List.filterMap_eq_map (first :: rest)

/-- A value that was encoded is read back. -/
theorem get_parseQuery_encode {names : List String} {name : String} (member : name ∈ names)
    (v : String → String) : get (parseQuery (encode names v)) name = v name := by
  have sorted : name ∈ names.insertionSort fun a b => a ≤ b := (List.mem_insertionSort _).mpr member
  rw [parseQuery_encode, get]
  generalize names.insertionSort (fun a b => a ≤ b) = keys at sorted
  induction keys with
  | nil => cases sorted
  | cons first rest ih =>
      rw [List.map_cons, List.find?_cons]
      by_cases isFirst : first = name
      · simp only [isFirst, decide_true, Option.map_some, Option.getD_some]
      · simp only [isFirst, decide_false]
        exact ih ((List.mem_cons.mp sorted).resolve_left fun same => isFirst same.symm)

/-- The path before the query has no question mark. -/
theorem queryOf_append {path : String} (plain : '?' ∉ path.toList) (query : String) :
    queryOf (path ++ "?" ++ query) = query := by
  have sides : cut (path ++ "?" ++ query) '?' = some (path, query) := cut_append plain query
  rw [queryOf, sides]
  rfl

end MiniCloud.Library.Urls
