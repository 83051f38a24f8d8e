import Mathlib.Data.List.Basic

/-!
# Self-delimiting text formats

A codec writes values as symbols and reads them back from the front of an input.
Its two laws are what the reader of an append-only file relies on: a written
value is read back whatever follows it, and every proper part of a written value
makes the reader ask for more.  Literals, single symbols, pairs, alternatives,
changes of representation and repetitions build the format of a record, and each
of them keeps both laws.  The last section reads a stream of such values.
-/

namespace MiniCloud.Library

variable {β α γ : Type}

/-- What a reader makes of the front of an input. -/
inductive Decoded (β α : Type) where
  | done (value : α) (rest : List β)
  | more
  | bad
  deriving DecidableEq, Repr

/-- Continue reading behind a value. -/
def Decoded.bind : Decoded β α → (α → List β → Decoded β γ) → Decoded β γ
  | .done value rest, next => next value rest
  | .more, _ => .more
  | .bad, _ => .bad

structure Codec (β α : Type) where
  encode : α → List β
  decode : List β → Decoded β α
  roundTrip : ∀ value rest, decode (encode value ++ rest) = .done value rest
  truncated : ∀ value part missing, encode value = part ++ missing → missing ≠ [] →
    decode part = .more

/-- The front part of a text of two pieces reaches into the second one, or is a
proper part of the first one. -/
theorem part_cases {front back part missing : List β}
    (split : front ++ back = part ++ missing) :
    (∃ read, part = front ++ read ∧ back = read ++ missing) ∨
      ∃ left, left ≠ [] ∧ front = part ++ left := by
  rcases List.append_eq_append_iff.mp split with ⟨read, reached, rest⟩ | ⟨left, rest, reached⟩
  · exact .inl ⟨read, reached, rest⟩
  · cases left with
    | nil =>
        rw [List.append_nil] at rest
        exact .inl ⟨[], by rw [rest, List.append_nil], reached.symm⟩
    | cons b left => exact .inr ⟨b :: left, List.cons_ne_nil _ _, rest⟩

namespace Codec

/-! ## Literals and single symbols -/

section Symbols

variable [DecidableEq β]

def decodeLiteral : List β → List β → Decoded β Unit
  | [], input => .done () input
  | _ :: _, [] => .more
  | b :: text, c :: input => if c = b then decodeLiteral text input else .bad

theorem decodeLiteral_append (text rest : List β) :
    decodeLiteral text (text ++ rest) = .done () rest := by
  induction text with
  | nil => rfl
  | cons b text ih =>
      rw [List.cons_append, decodeLiteral, if_pos rfl]
      exact ih

theorem decodeLiteral_part (part : List β) {missing : List β} (cut : missing ≠ []) :
    decodeLiteral (part ++ missing) part = .more := by
  induction part with
  | nil =>
      cases missing with
      | nil => exact absurd rfl cut
      | cons b missing => rfl
  | cons b part ih =>
      rw [List.cons_append, decodeLiteral, if_pos rfl]
      exact ih

/-- A fixed text. -/
def literal (text : List β) : Codec β Unit where
  encode _ := text
  decode := decodeLiteral text
  roundTrip _ rest := decodeLiteral_append text rest
  truncated _ part missing split cut := by
    rw [split]
    exact decodeLiteral_part part cut

end Symbols

/-- One symbol of a class. -/
def single (allowed : β → Bool) : Codec β { b // allowed b = true } where
  encode b := [b.1]
  decode
    | [] => .more
    | b :: rest => if fits : allowed b = true then .done ⟨b, fits⟩ rest else .bad
  roundTrip b rest := by simp [b.2]
  truncated b part missing split cut := by
    cases part with
    | nil => rfl
    | cons c part =>
        have empty : part ++ missing = [] := (List.cons.inj split).2.symm
        exact absurd (List.append_eq_nil_iff.mp empty).2 cut

/-! ## Pairs and changes of representation -/

def pair (first : Codec β α) (second : Codec β γ) : Codec β (α × γ) where
  encode v := first.encode v.1 ++ second.encode v.2
  decode input :=
    (first.decode input).bind fun a rest =>
      (second.decode rest).bind fun b rest => .done (a, b) rest
  roundTrip v rest := by
    rw [List.append_assoc, first.roundTrip]
    simp only [Decoded.bind, second.roundTrip]
  truncated v part missing split cut := by
    rcases part_cases split with ⟨read, reached, rest⟩ | ⟨left, unread, front⟩
    · rw [reached, first.roundTrip]
      simp only [Decoded.bind, second.truncated v.2 read missing rest cut]
    · rw [first.truncated v.1 part left front unread]
      rfl

/-- The same text for other values; `back` may refuse what `form` never produces. -/
def map (codec : Codec β α) (form : γ → α) (back : α → Option γ)
    (inverse : ∀ v, back (form v) = some v) : Codec β γ where
  encode v := codec.encode (form v)
  decode input :=
    (codec.decode input).bind fun a rest =>
      match back a with
      | some v => .done v rest
      | none => .bad
  roundTrip v rest := by
    rw [codec.roundTrip]
    simp only [Decoded.bind, inverse]
  truncated v part missing split cut := by
    rw [codec.truncated (form v) part missing split cut]
    rfl

/-- A value behind a fixed text. -/
def after [DecidableEq β] (text : List β) (codec : Codec β α) : Codec β α :=
  (pair (literal text) codec).map (fun v => ((), v)) (fun v => some v.2) fun _ => rfl

/-! ## Alternatives and repetitions -/

/-- Every written value begins with a symbol of the class. -/
def Begins (codec : Codec β α) (opening : β → Bool) : Prop :=
  ∀ v, ∃ b rest, codec.encode v = b :: rest ∧ opening b = true

theorem Begins.cons_of_part {codec : Codec β α} {opening : β → Bool}
    (begins : codec.Begins opening) {v : α} {b : β} {part missing : List β}
    (split : codec.encode v = b :: part ++ missing) : opening b = true := by
  obtain ⟨c, rest, written, opens⟩ := begins v
  rw [written, List.cons_append, List.cons.injEq] at split
  rw [← split.1]
  exact opens

/-- Two formats that the first symbol tells apart. -/
def either (first : Codec β α) (second : Codec β γ) (isFirst : β → Bool)
    (opensFirst : first.Begins isFirst) (opensSecond : second.Begins fun b => !isFirst b) :
    Codec β (α ⊕ γ) where
  encode
    | .inl v => first.encode v
    | .inr v => second.encode v
  decode
    | [] => .more
    | b :: input =>
        if isFirst b = true then
          (first.decode (b :: input)).bind fun v rest => .done (.inl v) rest
        else (second.decode (b :: input)).bind fun v rest => .done (.inr v) rest
  roundTrip v rest := by
    cases v with
    | inl v =>
        obtain ⟨b, text, written, opens⟩ := opensFirst v
        have read := first.roundTrip v rest
        rw [written, List.cons_append] at read
        simp only [written, List.cons_append, if_pos opens, read, Decoded.bind]
    | inr v =>
        obtain ⟨b, text, written, opens⟩ := opensSecond v
        have read := second.roundTrip v rest
        rw [written, List.cons_append] at read
        have other : ¬ isFirst b = true := by simpa using opens
        simp only [written, List.cons_append, if_neg other, read, Decoded.bind]
  truncated v part missing split cut := by
    cases part with
    | nil => rfl
    | cons b part =>
        cases v with
        | inl v =>
            have opens := opensFirst.cons_of_part split
            simp only [if_pos opens, first.truncated v _ missing split cut, Decoded.bind]
        | inr v =>
            have opens := opensSecond.cons_of_part split
            have other : ¬ isFirst b = true := by simpa using opens
            simp only [if_neg other, second.truncated v _ missing split cut, Decoded.bind]

section Many

variable [DecidableEq β] (element : Codec β α) (stop : β)

def decodeMany : Nat → List β → Decoded β (List α)
  | 0, _ => .bad
  | _ + 1, [] => .more
  | fuel + 1, b :: input =>
      if b = stop then .done [] input
      else
        (element.decode (b :: input)).bind fun v rest =>
          (decodeMany fuel rest).bind fun vs rest => .done (v :: vs) rest

variable {element stop}

/-- One round of the repetition, on an input that begins with an element. -/
theorem decodeMany_element (begins : element.Begins fun b => b ≠ stop) (fuel : Nat) (v : α)
    (rest : List β) :
    decodeMany element stop (fuel + 1) (element.encode v ++ rest) =
      (decodeMany element stop fuel rest).bind fun vs rest => .done (v :: vs) rest := by
  obtain ⟨b, text, written, opens⟩ := begins v
  have read := element.roundTrip v rest
  have other : b ≠ stop := of_decide_eq_true opens
  rw [written, List.cons_append] at read ⊢
  simp only [decodeMany, if_neg other, read, Decoded.bind]

theorem decodeMany_encode (begins : element.Begins fun b => b ≠ stop) (vs : List α) (spare : Nat)
    (rest : List β) :
    decodeMany element stop (vs.length + (spare + 1))
      (vs.flatMap element.encode ++ stop :: rest) = .done vs rest := by
  induction vs with
  | nil => simp [decodeMany]
  | cons v vs ih =>
      rw [List.flatMap_cons, List.append_assoc, List.length_cons, Nat.succ_add,
        decodeMany_element begins, ih]
      rfl

theorem decodeMany_part (begins : element.Begins fun b => b ≠ stop) {vs : List α}
    {part missing : List β} {fuel : Nat} (enough : part.length < fuel)
    (split : vs.flatMap element.encode ++ [stop] = part ++ missing) (cut : missing ≠ []) :
    decodeMany element stop fuel part = .more := by
  induction vs generalizing part fuel with
  | nil =>
      cases part with
      | nil =>
          obtain ⟨fuel, rfl⟩ := Nat.exists_eq_succ_of_ne_zero (Nat.ne_of_gt enough)
          rfl
      | cons b part =>
          have empty : part ++ missing = [] := (List.cons.inj split).2.symm
          exact absurd (List.append_eq_nil_iff.mp empty).2 cut
  | cons v vs ih =>
      obtain ⟨fuel, rfl⟩ := Nat.exists_eq_succ_of_ne_zero (Nat.ne_of_gt
        (Nat.lt_of_le_of_lt (Nat.zero_le _) enough))
      rw [List.flatMap_cons, List.append_assoc] at split
      rcases part_cases split with ⟨read, reached, rest⟩ | ⟨left, unread, front⟩
      · obtain ⟨b, text, written, _⟩ := begins v
        have shorter : read.length < fuel := by
          rw [reached, written, List.length_append, List.length_cons] at enough
          omega
        rw [reached, decodeMany_element begins, ih shorter rest]
        rfl
      · cases part with
        | nil => rfl
        | cons b part =>
            have other : b ≠ stop := of_decide_eq_true (begins.cons_of_part front)
            simp only [decodeMany, if_neg other, element.truncated v _ left front unread,
              Decoded.bind]

theorem length_le_flatMap (begins : element.Begins fun b => b ≠ stop) (vs : List α) :
    vs.length ≤ (vs.flatMap element.encode).length := by
  induction vs with
  | nil => exact Nat.le_refl _
  | cons v vs ih =>
      obtain ⟨b, text, written, _⟩ := begins v
      rw [List.flatMap_cons, List.length_append, written, List.length_cons, List.length_cons]
      omega

variable (element stop)

/-- Elements up to a closing symbol that begins none of them. -/
def many (begins : element.Begins fun b => b ≠ stop) : Codec β (List α) where
  encode vs := vs.flatMap element.encode ++ [stop]
  decode input := decodeMany element stop (input.length + 1) input
  roundTrip vs rest := by
    have short := length_le_flatMap begins vs
    rw [List.append_assoc, List.singleton_append]
    obtain ⟨spare, enough⟩ := Nat.exists_eq_add_of_le (show vs.length ≤
      (vs.flatMap element.encode ++ stop :: rest).length by rw [List.length_append]; omega)
    rw [enough, Nat.add_assoc]
    exact decodeMany_encode begins vs spare rest
  truncated vs part missing split cut :=
    decodeMany_part begins (Nat.lt_succ_self _) split cut

end Many

/-! ## Streams -/

/-- How the reading of a stream stops. -/
inductive Ending where
  /-- Between two values. -/
  | clean
  /-- Inside a value. -/
  | cut
  /-- At a symbol that no value allows. -/
  | malformed
  deriving DecidableEq, Repr

section Stream

variable (codec : Codec β α) (blank : β → Bool)

/-- Read values with blanks between them until the input ends. -/
def readAll : Nat → List β → List α × Ending
  | 0, _ => ([], .malformed)
  | fuel + 1, input =>
      match input.dropWhile blank with
      | [] => ([], .clean)
      | b :: text =>
          match codec.decode (b :: text) with
          | .done v rest => (v :: (readAll fuel rest).1, (readAll fuel rest).2)
          | .more => ([], .cut)
          | .bad => ([], .malformed)

def readStream (input : List β) : List α × Ending :=
  codec.readAll blank (input.length + 1) input

variable {codec blank}

theorem readAll_blank (fuel : Nat) {b : β} (isBlank : blank b = true) (input : List β) :
    codec.readAll blank fuel (b :: input) = codec.readAll blank fuel input := by
  cases fuel with
  | zero => rfl
  | succ fuel => simp only [readAll, List.dropWhile_cons_of_pos isBlank]

theorem readAll_value (begins : codec.Begins fun b => !blank b) (fuel : Nat) (v : α)
    (rest : List β) :
    codec.readAll blank (fuel + 1) (codec.encode v ++ rest) =
      (v :: (codec.readAll blank fuel rest).1, (codec.readAll blank fuel rest).2) := by
  obtain ⟨b, text, written, opens⟩ := begins v
  have shown : ¬ blank b = true := by simpa using opens
  have read := codec.roundTrip v rest
  rw [written, List.cons_append] at read ⊢
  simp only [readAll, List.dropWhile_cons_of_neg shown, read]

/-- A proper part of a value stops the reading inside that value. -/
theorem readAll_part (begins : codec.Begins fun b => !blank b) (fuel : Nat) {v : α}
    {part missing : List β} (split : codec.encode v = part ++ missing) (started : part ≠ [])
    (cut : missing ≠ []) : codec.readAll blank (fuel + 1) part = ([], .cut) := by
  cases part with
  | nil => exact absurd rfl started
  | cons b part =>
      have opens := begins.cons_of_part split
      have shown : ¬ blank b = true := by simpa using opens
      simp only [readAll, List.dropWhile_cons_of_neg shown, codec.truncated v _ missing split cut]

/-- Values that each end in a blank are read one by one. -/
theorem readAll_lines (begins : codec.Begins fun b => !blank b) {newline : β}
    (isBlank : blank newline = true) (vs : List α) (fuel : Nat) (rest : List β) :
    codec.readAll blank (vs.length + fuel)
        (vs.flatMap (fun v => codec.encode v ++ [newline]) ++ rest) =
      (vs ++ (codec.readAll blank fuel rest).1, (codec.readAll blank fuel rest).2) := by
  induction vs with
  | nil => simp
  | cons v vs ih =>
      rw [List.flatMap_cons, List.append_assoc, List.append_assoc, List.length_cons,
        Nat.succ_add, readAll_value begins, List.singleton_append, readAll_blank _ isBlank, ih]
      rfl

/-- What is read behind complete lines, with fuel left for the rest. -/
theorem readStream_lines (begins : codec.Begins fun b => !blank b) (newline : β)
    (isBlank : blank newline = true) (vs : List α) (rest : List β) :
    ∃ fuel, rest.length < fuel ∧
      codec.readStream blank (vs.flatMap (fun v => codec.encode v ++ [newline]) ++ rest) =
        (vs ++ (codec.readAll blank fuel rest).1, (codec.readAll blank fuel rest).2) := by
  have short : vs.length ≤ (vs.flatMap fun v => codec.encode v ++ [newline]).length := by
    induction vs with
    | nil => exact Nat.le_refl _
    | cons v vs ih =>
        rw [List.flatMap_cons, List.length_append, List.length_append, List.length_cons,
          List.length_singleton]
        omega
  obtain ⟨spare, enough⟩ := Nat.exists_eq_add_of_le short
  refine ⟨spare + rest.length + 1, by omega, ?_⟩
  rw [readStream, List.length_append, enough, Nat.add_assoc, Nat.add_assoc, ← Nat.add_assoc spare]
  exact readAll_lines begins isBlank vs _ rest

/-- A stream of lines that stops at any place is read as the first values, and whatever
behind them was cut off is left out. -/
theorem readAll_cut (begins : codec.Begins fun b => !blank b) {newline : β}
    (isBlank : blank newline = true) {vs : List α} {part missing : List β} {fuel : Nat}
    (enough : part.length < fuel)
    (split : vs.flatMap (fun v => codec.encode v ++ [newline]) = part ++ missing) :
    (codec.readAll blank fuel part).1 <+: vs ∧ (codec.readAll blank fuel part).2 ≠ .malformed := by
  induction vs generalizing part fuel with
  | nil =>
      obtain ⟨rfl, -⟩ := List.append_eq_nil_iff.mp split.symm
      obtain ⟨fuel, rfl⟩ := Nat.exists_eq_succ_of_ne_zero (Nat.ne_of_gt enough)
      exact ⟨ List.nil_prefix, Ending.noConfusion⟩
  | cons v vs ih =>
      obtain ⟨fuel, rfl⟩ := Nat.exists_eq_succ_of_ne_zero (Nat.ne_of_gt
        (Nat.lt_of_le_of_lt (Nat.zero_le _) enough))
      rw [List.flatMap_cons, List.append_assoc] at split
      rcases part_cases split with ⟨read, reached, rest⟩ | ⟨left, unread, front⟩
      · obtain ⟨b, text, written, _⟩ := begins v
        have shorter : read.length < fuel := by
          rw [reached, written, List.length_append, List.length_cons] at enough
          omega
        rw [reached, readAll_value begins]
        cases read with
        | nil =>
            obtain ⟨fuel, rfl⟩ := Nat.exists_eq_succ_of_ne_zero (Nat.ne_of_gt shorter)
            exact ⟨⟨vs, rfl⟩, Ending.noConfusion⟩
        | cons c read =>
            rw [List.singleton_append, List.cons_append, List.cons.injEq] at rest
            rw [← rest.1, readAll_blank _ isBlank]
            have later := ih (Nat.lt_of_succ_lt shorter) rest.2
            exact ⟨(List.prefix_cons_inj v).mpr later.1, later.2⟩
      · by_cases started : part = []
        · subst started
          exact ⟨ List.nil_prefix, Ending.noConfusion⟩
        · rw [readAll_part begins fuel front started unread]
          exact ⟨ List.nil_prefix, Ending.noConfusion⟩

theorem readStream_cut (begins : codec.Begins fun b => !blank b) {newline : β}
    (isBlank : blank newline = true) {vs : List α} {part missing : List β}
    (split : vs.flatMap (fun v => codec.encode v ++ [newline]) = part ++ missing) :
    (codec.readStream blank part).1 <+: vs ∧ (codec.readStream blank part).2 ≠ .malformed :=
  readAll_cut begins isBlank (Nat.lt_succ_self _) split

end Stream

end Codec

end MiniCloud.Library
