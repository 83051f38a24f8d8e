import MiniCloud.Library.Codec

/-!
# Numbers, byte strings and texts in JSON

The pieces of a JSON record as codecs over bytes: a natural number up to the
symbol behind it, and the inside of a quoted string up to its closing quote, for
byte strings in base64 and for texts with their escapes.  The writers follow the
choices of Go's `encoding/json`: the shortest decimal numeral, padded standard
base64, two-letter escapes where JSON has them, and four hexadecimal digits for
the other control characters, for `<`, `>` and `&`, and for the two Unicode line
separators.  A text is its characters of Unicode, written in UTF-8.
-/

namespace MiniCloud.Library.JsonText

open Codec

/-- The bytes of a text of ASCII characters. -/
def ascii (text : String) : List UInt8 := text.toList.map fun c => UInt8.ofNat c.toNat

def quote : UInt8 := 34

def backslash : UInt8 := 92

/-! ## Classes of symbols -/

/-- Symbols of a class up to a closing symbol outside of it. -/
def symbolsUntil (allowed : UInt8 → Bool) (stop : UInt8) (closes : allowed stop = false) :
    Codec UInt8 (List { b // allowed b = true }) :=
  many (single allowed) stop fun b =>
    ⟨b.1, [], rfl, decide_eq_true fun same => by
      have inside := b.2
      rw [same, closes] at inside
      cases inside⟩

/-- A value written with symbols of a class. -/
def spelled {α : Type} (allowed : UInt8 → Bool) (stop : UInt8) (closes : allowed stop = false)
    (write : α → List UInt8) (read : List UInt8 → Option α)
    (fits : ∀ v, ∀ b ∈ write v, allowed b = true) (inverse : ∀ v, read (write v) = some v) :
    Codec UInt8 α :=
  (symbolsUntil allowed stop closes).map
    (fun v => (write v).attachWith (fun b => allowed b = true) (fits v))
    (fun symbols => read (symbols.map Subtype.val)) fun v => by
      rw [List.attachWith_map_subtype_val]
      exact inverse v

/-! ## Numbers -/

def isDigit (b : UInt8) : Bool := 48 ≤ b && b ≤ 57

/-- The decimal numeral of a number. -/
def decimal (n : Nat) : List UInt8 := (Nat.toDigits 10 n).map fun c => UInt8.ofNat c.toNat

/-- Read a numeral without leading zeros. -/
def readDecimal (text : List UInt8) : Option Nat :=
  let n := Nat.ofDigitChars 10 (text.map fun b => Char.ofNat b.toNat) 0
  if decimal n = text then some n else none

theorem digit_bounds {n : Nat} {c : Char} (digit : c ∈ Nat.toDigits 10 n) :
    48 ≤ c.toNat ∧ c.toNat ≤ 57 := by
  have isDigit := Nat.isDigit_of_mem_toDigits (by decide) (by decide) digit
  simpa [Char.isDigit, UInt32.le_iff_toNat_le] using isDigit

theorem isDigit_of_mem_decimal (n : Nat) : ∀ b ∈ decimal n, isDigit b = true := by
  intro b member
  obtain ⟨c, digit, rfl⟩ := List.mem_map.mp member
  obtain ⟨least, most⟩ := digit_bounds digit
  have small : (UInt8.ofNat c.toNat).toNat = c.toNat :=
    Nat.mod_eq_of_lt (Nat.lt_of_le_of_lt most (by decide))
  simp only [isDigit, Bool.and_eq_true, decide_eq_true_eq, UInt8.le_iff_toNat_le, small]
  exact ⟨least, most⟩

theorem readDecimal_decimal (n : Nat) : readDecimal (decimal n) = some n := by
  have chars : (decimal n).map (fun b => Char.ofNat b.toNat) = Nat.toDigits 10 n := by
    rw [decimal, List.map_map]
    refine (List.map_congr_left ?_).trans (List.map_id _)
    intro c digit
    have most := (digit_bounds digit).2
    have small : (UInt8.ofNat c.toNat).toNat = c.toNat :=
      Nat.mod_eq_of_lt (Nat.lt_of_le_of_lt most (by decide))
    simp only [Function.comp_apply, small, Char.ofNat_toNat, id]
  rw [readDecimal, chars, Nat.ofDigitChars_ten_toDigits]
  exact if_pos rfl

/-- A natural number up to the symbol behind it. -/
def number (stop : UInt8) (closes : isDigit stop = false) : Codec UInt8 Nat :=
  spelled isDigit stop closes decimal readDecimal isDigit_of_mem_decimal readDecimal_decimal

/-! ## Byte strings -/

def padding : UInt8 := 61

/-- The symbol of six bits. -/
def symbol (k : Nat) : UInt8 :=
  if k < 26 then UInt8.ofNat (65 + k)
  else if k < 52 then UInt8.ofNat (71 + k)
  else if k < 62 then UInt8.ofNat (k - 4)
  else if k = 62 then 43
  else 47

/-- The six bits of a symbol. -/
def sextet (b : UInt8) : Option Nat :=
  if 65 ≤ b ∧ b ≤ 90 then some (b.toNat - 65)
  else if 97 ≤ b ∧ b ≤ 122 then some (b.toNat - 71)
  else if 48 ≤ b ∧ b ≤ 57 then some (b.toNat + 4)
  else if b = 43 then some 62
  else if b = 47 then some 63
  else none

def isBase64 (b : UInt8) : Bool := (sextet b).isSome || b == padding

theorem sextet_symbol {k : Nat} (small : k < 64) : sextet (symbol k) = some k := by
  have all : ∀ k : Fin 64, sextet (symbol k) = some k.val := by decide
  exact all ⟨k, small⟩

theorem symbol_ne_padding {k : Nat} (small : k < 64) : symbol k ≠ padding := by
  have all : ∀ k : Fin 64, symbol k ≠ padding := by decide
  exact all ⟨k, small⟩

theorem isBase64_symbol {k : Nat} (small : k < 64) : isBase64 (symbol k) = true := by
  rw [isBase64, sextet_symbol small]
  rfl

def base64 : List UInt8 → List UInt8
  | [] => []
  | [a] => [symbol (a.toNat / 4), symbol (a.toNat % 4 * 16), padding, padding]
  | [a, b] =>
      [symbol (a.toNat / 4), symbol (a.toNat % 4 * 16 + b.toNat / 16),
        symbol (b.toNat % 16 * 4), padding]
  | a :: b :: c :: rest =>
      symbol (a.toNat / 4) :: symbol (a.toNat % 4 * 16 + b.toNat / 16) ::
        symbol (b.toNat % 16 * 4 + c.toNat / 64) :: symbol (c.toNat % 64) :: base64 rest

def readBase64 : List UInt8 → Option (List UInt8)
  | [] => some []
  | p :: q :: r :: s :: rest => do
      let p ← sextet p
      let q ← sextet q
      if r = padding then
        if s = padding ∧ rest = [] then some [UInt8.ofNat (p * 4 + q / 16)] else none
      else
        let r ← sextet r
        if s = padding then
          if rest = [] then
            some [UInt8.ofNat (p * 4 + q / 16), UInt8.ofNat (q % 16 * 16 + r / 4)]
          else none
        else
          let s ← sextet s
          let later ← readBase64 rest
          some (UInt8.ofNat (p * 4 + q / 16) :: UInt8.ofNat (q % 16 * 16 + r / 4) ::
            UInt8.ofNat (r % 4 * 64 + s) :: later)
  | _ => none

theorem isBase64_of_mem_base64 (bytes : List UInt8) : ∀ b ∈ base64 bytes, isBase64 b = true := by
  fun_induction base64 bytes with
  | case1 => simp
  | case2 a =>
      have bound := a.toNat_lt
      simp only [List.forall_mem_cons]
      exact ⟨isBase64_symbol (by omega), isBase64_symbol (by omega), rfl, rfl, by simp⟩
  | case3 a b =>
      have bound := a.toNat_lt
      have bound' := b.toNat_lt
      simp only [List.forall_mem_cons]
      exact ⟨isBase64_symbol (by omega), isBase64_symbol (by omega),
        isBase64_symbol (by omega), rfl, by simp⟩
  | case4 a b c rest ih =>
      have bound := a.toNat_lt
      have bound' := b.toNat_lt
      have bound'' := c.toNat_lt
      simp only [List.forall_mem_cons]
      exact ⟨isBase64_symbol (by omega), isBase64_symbol (by omega),
        isBase64_symbol (by omega), isBase64_symbol (by omega), ih⟩

theorem readBase64_one {p q : Nat} (smallP : p < 64) (smallQ : q < 64) :
    readBase64 [symbol p, symbol q, padding, padding] = some [UInt8.ofNat (p * 4 + q / 16)] := by
  simp only [readBase64, sextet_symbol smallP, sextet_symbol smallQ, Option.bind_eq_bind,
    Option.bind_some, and_self, if_true]

theorem readBase64_two {p q r : Nat} (smallP : p < 64) (smallQ : q < 64) (smallR : r < 64) :
    readBase64 [symbol p, symbol q, symbol r, padding] =
      some [UInt8.ofNat (p * 4 + q / 16), UInt8.ofNat (q % 16 * 16 + r / 4)] := by
  simp only [readBase64, sextet_symbol smallP, sextet_symbol smallQ, sextet_symbol smallR,
    symbol_ne_padding smallR, Option.bind_eq_bind, Option.bind_some, if_true, if_false]

theorem readBase64_three {p q r s : Nat} (smallP : p < 64) (smallQ : q < 64) (smallR : r < 64)
    (smallS : s < 64) (rest : List UInt8) :
    readBase64 (symbol p :: symbol q :: symbol r :: symbol s :: rest) =
      (readBase64 rest).map fun later =>
        UInt8.ofNat (p * 4 + q / 16) :: UInt8.ofNat (q % 16 * 16 + r / 4) ::
          UInt8.ofNat (r % 4 * 64 + s) :: later := by
  simp only [readBase64, sextet_symbol smallP, sextet_symbol smallQ, sextet_symbol smallR,
    sextet_symbol smallS, symbol_ne_padding smallR, symbol_ne_padding smallS,
    Option.bind_eq_bind, Option.bind_some, if_false]
  cases readBase64 rest with
  | none => rfl
  | some later => rfl

/-- A byte is determined by its value. -/
theorem ofNat_eq {n : Nat} {b : UInt8} (same : n = b.toNat) : UInt8.ofNat n = b := by
  rw [same, UInt8.ofNat_toNat]

theorem readBase64_base64 (bytes : List UInt8) : readBase64 (base64 bytes) = some bytes := by
  fun_induction base64 bytes with
  | case1 => rfl
  | case2 a =>
      have bound := a.toNat_lt
      rw [readBase64_one (by omega) (by omega)]
      exact congrArg some (congrArg (· :: []) (ofNat_eq (by omega)))
  | case3 a b =>
      have boundA := a.toNat_lt
      have boundB := b.toNat_lt
      rw [readBase64_two (by omega) (by omega) (by omega), ofNat_eq (b := a) (by omega),
        ofNat_eq (b := b) (by omega)]
  | case4 a b c rest ih =>
      have boundA := a.toNat_lt
      have boundB := b.toNat_lt
      have boundC := c.toNat_lt
      rw [readBase64_three (by omega) (by omega) (by omega) (by omega), ih,
        ofNat_eq (b := a) (by omega), ofNat_eq (b := b) (by omega), ofNat_eq (b := c) (by omega)]
      rfl

/-- A byte string in base64 up to the closing quote. -/
def byteString : Codec UInt8 (List UInt8) :=
  spelled isBase64 quote (by decide) base64 readBase64 isBase64_of_mem_base64 readBase64_base64

/-! ## Texts -/

/-- The two-letter escapes. -/
inductive Escape where
  | quote
  | backslash
  | backspace
  | formFeed
  | newline
  | carriageReturn
  | tab
  deriving DecidableEq, Repr

namespace Escape

def all : List Escape := [quote, backslash, backspace, formFeed, newline, carriageReturn, tab]

def letter : Escape → UInt8
  | quote => 34
  | backslash => 92
  | backspace => 98
  | formFeed => 102
  | newline => 110
  | carriageReturn => 114
  | tab => 116

def char : Escape → Char
  | quote => '\x22'
  | backslash => '\x5c'
  | backspace => '\x08'
  | formFeed => '\x0c'
  | newline => '\n'
  | carriageReturn => '\r'
  | tab => '\t'

def ofLetter (b : UInt8) : Option Escape := all.find? fun x => x.letter = b

def ofChar (c : Char) : Option Escape := all.find? fun x => x.char = c

theorem ofLetter_letter (x : Escape) : ofLetter x.letter = some x := by
  cases x <;> rfl

theorem char_of_ofChar {c : Char} {x : Escape} (found : ofChar c = some x) : x.char = c := by
  unfold ofChar at found
  have matched := List.find?_some found
  exact of_decide_eq_true matched

theorem char_ne_of_ofChar {c : Char} (missed : ofChar c = none) (x : Escape) : x.char ≠ c := by
  have listed : x ∈ all := by cases x <;> decide
  simpa using List.find?_eq_none.mp missed x listed

end Escape

def hexDigit (k : Fin 16) : UInt8 := if k.val < 10 then UInt8.ofNat (48 + k) else UInt8.ofNat (87 + k)

/-- Both cases of the letters are read. -/
def hexValue (b : UInt8) : Option (Fin 16) :=
  if 48 ≤ b ∧ b ≤ 57 then some (Fin.ofNat 16 (b.toNat - 48))
  else if 97 ≤ b ∧ b ≤ 102 then some (Fin.ofNat 16 (b.toNat - 87))
  else if 65 ≤ b ∧ b ≤ 70 then some (Fin.ofNat 16 (b.toNat - 55))
  else none

theorem hexValue_hexDigit (k : Fin 16) : hexValue (hexDigit k) = some k := by
  revert k
  decide

/-- A byte that stands for itself inside a string. -/
def isRaw (b : UInt8) : Bool := 32 ≤ b && b != quote && b != backslash

/-- One symbol of the inside of a string: a byte that stands for itself, a
two-letter escape, or four hexadecimal digits. -/
abbrev Token := { b // isRaw b = true } ⊕ Escape ⊕ (Fin 16 × Fin 16) × Fin 16 × Fin 16

def hexCodec : Codec UInt8 (Fin 16) :=
  (single fun b => (hexValue b).isSome).map
    (fun k => ⟨hexDigit k, by rw [hexValue_hexDigit]; rfl⟩) (fun b => hexValue b.1)
    hexValue_hexDigit

def letterCodec : Codec UInt8 Escape :=
  (single fun b => (Escape.ofLetter b).isSome).map
    (fun x => ⟨x.letter, by rw [Escape.ofLetter_letter]; rfl⟩) (fun b => Escape.ofLetter b.1)
    Escape.ofLetter_letter

def unicodeCodec : Codec UInt8 ((Fin 16 × Fin 16) × Fin 16 × Fin 16) :=
  after (ascii "u") (pair (pair hexCodec hexCodec) (pair hexCodec hexCodec))

def escapeCodec : Codec UInt8 (Escape ⊕ (Fin 16 × Fin 16) × Fin 16 × Fin 16) :=
  after [backslash] (either letterCodec unicodeCodec (fun b => b != 117)
    (fun x => ⟨x.letter, [], rfl, by cases x <;> rfl⟩) fun _ => ⟨117, _, rfl, rfl⟩)

def tokenCodec : Codec UInt8 Token :=
  either (single isRaw) escapeCodec (fun b => b != backslash)
    (fun b => ⟨b.1, [], rfl, by
      have raw := b.2
      simp only [isRaw, Bool.and_eq_true] at raw
      exact raw.2⟩)
    fun _ => ⟨backslash, _, rfl, rfl⟩

theorem tokenCodec_begins : tokenCodec.Begins fun b => b ≠ quote := by
  intro token
  cases token with
  | inl b =>
      have raw := b.2
      simp only [isRaw, Bool.and_eq_true, bne_iff_ne] at raw
      exact ⟨b.1, [], rfl, decide_eq_true raw.1.2⟩
  | inr escape => exact ⟨backslash, _, rfl, rfl⟩

/-- The character of four hexadecimal digits; a surrogate, which is never
written, is read as the replacement character. -/
def unicodeChar (digits : (Fin 16 × Fin 16) × Fin 16 × Fin 16) : Char :=
  let n := digits.1.1.val * 4096 + digits.1.2.val * 256 + digits.2.1.val * 16 + digits.2.2.val
  if n.isValidChar then Char.ofNat n else '\uFFFD'

def unicodeDigits (c : Char) : (Fin 16 × Fin 16) × Fin 16 × Fin 16 :=
  ((Fin.ofNat 16 (c.toNat / 4096), Fin.ofNat 16 (c.toNat / 256)),
    Fin.ofNat 16 (c.toNat / 16), Fin.ofNat 16 c.toNat)

/-- The characters that are written with hexadecimal digits. -/
def needsUnicode (c : Char) : Bool :=
  c.toNat < 32 || [60, 62, 38, 0x2028, 0x2029].contains c.toNat

def rawToken (b : UInt8) : Option Token :=
  if raw : isRaw b = true then some (.inl ⟨b, raw⟩) else none

def charTokens (c : Char) : List Token :=
  match Escape.ofChar c with
  | some x => [.inr (.inl x)]
  | none =>
      if needsUnicode c = true then [.inr (.inr (unicodeDigits c))]
      else (String.utf8EncodeChar c).filterMap rawToken

def tokenBytes : Token → List UInt8
  | .inl b => [b.1]
  | .inr (.inl x) => String.utf8EncodeChar x.char
  | .inr (.inr digits) => String.utf8EncodeChar (unicodeChar digits)

theorem unicodeChar_unicodeDigits {c : Char} (small : c.toNat < 65536) :
    unicodeChar (unicodeDigits c) = c := by
  have value : c.toNat / 4096 % 16 * 4096 + c.toNat / 256 % 16 * 256 + c.toNat / 16 % 16 * 16 +
      c.toNat % 16 = c.toNat := by omega
  have valid : c.toNat.isValidChar := c.valid
  simp only [unicodeChar, unicodeDigits, Fin.val_ofNat, value, if_pos valid, Char.ofNat_toNat]

theorem small_of_needsUnicode {c : Char} (needs : needsUnicode c = true) : c.toNat < 65536 := by
  simp only [needsUnicode, List.contains_eq_mem, List.mem_cons, List.not_mem_nil, or_false,
    Bool.or_eq_true, decide_eq_true_eq] at needs
  omega

theorem rawTokens_bytes {bytes : List UInt8} (raw : ∀ b ∈ bytes, isRaw b = true) :
    (bytes.filterMap rawToken).flatMap tokenBytes = bytes := by
  induction bytes with
  | nil => rfl
  | cons b bytes ih =>
      have kept : rawToken b = some (.inl ⟨b, raw b List.mem_cons_self⟩) :=
        dif_pos (raw b List.mem_cons_self)
      rw [List.filterMap_cons_some kept, List.flatMap_cons,
        ih fun b member => raw b (List.mem_cons_of_mem _ member)]
      rfl

/-- The bytes of a character that needs no escape stand for themselves. -/
theorem isRaw_utf8 {c : Char} (unescaped : Escape.ofChar c = none)
    (plain : needsUnicode c = false) : ∀ b ∈ String.utf8EncodeChar c, isRaw b = true := by
  have printable : 32 ≤ c.toNat := by
    simp only [needsUnicode, Bool.or_eq_false_iff, decide_eq_false_iff_not] at plain
    omega
  have notQuote : c.toNat ≠ 34 := fun same => Escape.char_ne_of_ofChar unescaped .quote
    (Char.toNat_inj.mp same.symm)
  have notBackslash : c.toNat ≠ 92 := fun same => Escape.char_ne_of_ofChar unescaped .backslash
    (Char.toNat_inj.mp same.symm)
  have raw (n : Nat) (small : n < 256) (printable : 32 ≤ n) (notQuote : n ≠ 34)
      (notBackslash : n ≠ 92) : isRaw (UInt8.ofNat n) = true := by
    have value : (UInt8.ofNat n).toNat = n := Nat.mod_eq_of_lt small
    simp only [isRaw, Bool.and_eq_true, decide_eq_true_eq, bne_iff_ne, ne_eq,
      UInt8.le_iff_toNat_le, ← UInt8.toNat_inj, value]
    exact ⟨⟨printable, notQuote⟩, notBackslash⟩
  have same : c.val.toNat = c.toNat := rfl
  unfold String.utf8EncodeChar
  simp only [same]
  split
  · simp only [List.forall_mem_singleton]
    exact raw _ (by omega) printable notQuote notBackslash
  split
  · simp only [List.forall_mem_cons]
    exact ⟨raw _ (by omega) (by omega) (by omega) (by omega),
      raw _ (by omega) (by omega) (by omega) (by omega), by simp⟩
  split
  · simp only [List.forall_mem_cons]
    exact ⟨raw _ (by omega) (by omega) (by omega) (by omega),
      raw _ (by omega) (by omega) (by omega) (by omega),
      raw _ (by omega) (by omega) (by omega) (by omega), by simp⟩
  · simp only [List.forall_mem_cons]
    exact ⟨raw _ (by omega) (by omega) (by omega) (by omega),
      raw _ (by omega) (by omega) (by omega) (by omega),
      raw _ (by omega) (by omega) (by omega) (by omega),
      raw _ (by omega) (by omega) (by omega) (by omega), by simp⟩

theorem charTokens_bytes (c : Char) :
    (charTokens c).flatMap tokenBytes = String.utf8EncodeChar c := by
  unfold charTokens
  split
  · rename_i x found
    simp [tokenBytes, Escape.char_of_ofChar found]
  · rename_i unescaped
    by_cases needs : needsUnicode c = true
    · simp [needs, tokenBytes, unicodeChar_unicodeDigits (small_of_needsUnicode needs)]
    · rw [if_neg needs]
      exact rawTokens_bytes (isRaw_utf8 unescaped (by simpa using needs))

def textTokens (text : String) : List Token := text.toList.flatMap charTokens

def readText (tokens : List Token) : Option String :=
  String.fromUTF8? (tokens.flatMap tokenBytes).toByteArray

theorem readText_textTokens (text : String) : readText (textTokens text) = some text := by
  have bytes : ((textTokens text).flatMap tokenBytes).toByteArray = text.toByteArray := by
    rw [textTokens, List.flatMap_assoc, ← String.utf8Encode_toList]
    simp only [charTokens_bytes]
    rfl
  rw [readText, bytes, String.fromUTF8?, dif_pos text.isValidUTF8]
  rfl

/-- A text up to the closing quote. -/
def string : Codec UInt8 String :=
  (many tokenCodec quote tokenCodec_begins).map textTokens readText readText_textTokens

end MiniCloud.Library.JsonText
