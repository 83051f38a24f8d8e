import MiniCloud.Dns.AnswerSection

/-!
# Reading and writing names

A name without a pointer is read as its labels joined with dots, and written as the pieces
between the dots.  What is written is therefore read back, and what was read is written
again exactly if no label had a dot of its own.
-/

namespace MiniCloud.Dns

/-! ## Reading what is spelled -/

/-- Each label takes one round, and the root one more. -/
theorem readNameFrom_of_spells {buf : Bytes} {off next fuel : Nat} {labels : List Bytes}
    (spells : Spells buf off labels next) (enough : labels.length < fuel) (before : List Bytes) :
    readNameFrom buf fuel off before = some (.ok (join (before ++ labels), next)) := by
  induction spells generalizing fuel before with
  | root root =>
      obtain ⟨fuel, rfl⟩ := Nat.exists_eq_add_of_lt enough
      rw [readNameFrom, root, List.append_nil]
  | label label _ ih =>
      rw [List.length_cons] at enough
      obtain ⟨fuel, rfl⟩ : ∃ rest, fuel = rest + 1 := ⟨fuel - 1, by omega⟩
      simp only [readNameFrom, label]
      rw [ih (Nat.lt_of_succ_lt_succ enough), List.append_assoc, List.singleton_append]

/-- A name that is read without coming to a pointer is spelled at the offset. -/
theorem spells_of_readNameFrom {buf : Bytes} {fuel off next : Nat} {before : List Bytes}
    {name : Bytes} (direct : ∀ ptr, ¬ Leads buf off ptr)
    (read : readNameFrom buf fuel off before = some (.ok (name, next))) :
    ∃ labels, Spells buf off labels next ∧ name = join (before ++ labels) := by
  induction fuel generalizing off before with
  | zero => cases read
  | succ fuel ih =>
      rw [readNameFrom] at read
      cases found : item buf off with
      | outside | cut | long =>
          rw [found] at read
          cases read
      | root =>
          rw [found] at read
          cases read
          exact ⟨[], .root found, by rw [List.append_nil]⟩
      | pointer ptr => exact absurd (.here found) (direct ptr)
      | label bytes =>
          rw [found] at read
          obtain ⟨labels, spells, isName⟩ := ih (fun ptr leads => direct ptr (.later found leads)) read
          exact ⟨bytes :: labels, .label found spells, by rw [isName, List.append_assoc]; rfl⟩

theorem Spells.direct {buf : Bytes} {off next : Nat} {labels : List Bytes}
    (spells : Spells buf off labels next) (ptr : Nat) : ¬ Leads buf off ptr := by
  induction spells with
  | root root =>
      intro leads
      cases leads with
      | here pointer =>
          rw [root] at pointer
          cases pointer
      | later label _ =>
          rw [root] at label
          cases label
  | label label _ ih =>
      intro leads
      cases leads with
      | here pointer =>
          rw [label] at pointer
          cases pointer
      | later other rest =>
          rw [label] at other
          cases other
          exact ih rest

/-- What is read where a name is spelled are its labels, joined. -/
theorem Spells.name_eq {buf : Bytes} {fuel off next next' : Nat} {labels : List Bytes} {name : Bytes}
    (spells : Spells buf off labels next)
    (read : readName fuel buf off = some (.ok (name, next'))) : name = join labels := by
  obtain ⟨labels', spells', isName⟩ := spells_of_readNameFrom spells.direct read
  rw [isName, List.nil_append, (spells.decodes.unique spells'.decodes).1]

/-! ## The bytes of a name -/

/-- A spelled name stands there as it is written. -/
theorem Spells.drop {buf : Bytes} {off next : Nat} {labels : List Bytes}
    (spells : Spells buf off labels next) : buf.drop off = encode labels ++ buf.drop next := by
  induction spells with
  | root root => exact drop_of_root root
  | label label _ ih =>
      rw [encode_cons, List.cons_append, List.append_assoc, ← ih]
      exact drop_of_label label

theorem Spells.next_eq {buf : Bytes} {off next : Nat} {labels : List Bytes}
    (spells : Spells buf off labels next) : next = off + (encode labels).length := by
  induction spells with
  | root _ => rfl
  | label _ _ ih =>
      rw [encode_cons, List.length_cons, List.length_append]
      omega

/-- The bytes that are read are those that writing the labels gives. -/
theorem Spells.consumed {buf : Bytes} {off next : Nat} {labels : List Bytes}
    (spells : Spells buf off labels next) :
    (buf.drop off).take (next - off) = encode labels := by
  have length : next - off = (encode labels).length := by
    have isNext := spells.next_eq
    omega
  rw [spells.drop, length, List.take_left]

theorem encode_injective {labels labels' : List Bytes} (short : Short labels)
    (short' : Short labels') (same : encode labels = encode labels') : labels = labels' := by
  have first := decodes_encode short [] []
  have second := decodes_encode short' [] []
  rw [← same] at second
  exact (first.unique second).1

/-! ## Both ways -/

/-- No label has a dot in it. -/
def Dotless (labels : List Bytes) : Prop := ∀ label ∈ labels, dot ∉ label

theorem labelsOf_join_of_dotless {labels : List Bytes} (short : Short labels)
    (dotless : Dotless labels) : labelsOf (join labels) = labels := by
  rw [labelsOf_join]
  exact (flatMap_labelsOf_iff short).mpr dotless

/-- A name that is written between other bytes is read back, up to where the other bytes
begin. -/
theorem readName_writeName {labels : List Bytes}
    (proper : ∀ label ∈ labels, label ≠ [] ∧ dot ∉ label ∧ label.length ≤ 63) (p s : Bytes)
    {fuel : Nat} (enough : labels.length < fuel) :
    readName fuel (p ++ writeName (join labels) ++ s) p.length =
      some (.ok (join labels, (p ++ writeName (join labels)).length)) := by
  have short : Short labels := fun label member =>
    ⟨(proper label member).1, by have := (proper label member).2.2; omega⟩
  have written : writeName (join labels) = encode labels := by
    rw [writeName_eq, labelsOf_join_of_dotless short fun label member => (proper label member).2.1]
  rw [written, List.append_assoc, List.length_append]
  exact readNameFrom_of_spells (spells_encode short p s) enough []

/-- The name `web.prod`, in a buffer of 16 bytes. -/
theorem readName_writeName_web :
    readName 3 ([7, 7] ++ writeName (join [[119, 101, 98], [112, 114, 111, 100]]) ++ [0, 1, 0, 1]) 2 =
      some (.ok ([119, 101, 98, 46, 112, 114, 111, 100], 12)) := by
  have proper : ∀ label ∈ ([[119, 101, 98], [112, 114, 111, 100]] : List Bytes),
      label ≠ [] ∧ dot ∉ label ∧ label.length ≤ 63 := by decide
  exact readName_writeName proper [7, 7] [0, 1, 0, 1] (by decide)

/-- A name that was read without a pointer is written as the bytes that were read exactly if
no label that stands there has a dot.  Another sequence of labels that is read as the same
name is the same one exactly if it has no dot either. -/
theorem writeName_readName_iff {buf name : Bytes} {fuel off next : Nat}
    (direct : ∀ ptr, ¬ Leads buf off ptr)
    (read : readName fuel buf off = some (.ok (name, next))) :
    ∃ labels, Spells buf off labels next ∧
      (writeName name = (buf.drop off).take (next - off) ↔ Dotless labels) ∧
      (Dotless labels → ∀ {buf' : Bytes} {fuel' off' next' : Nat} {labels' : List Bytes},
        readName fuel' buf' off' = some (.ok (name, next')) → Spells buf' off' labels' next' →
          (labels' = labels ↔ Dotless labels')) := by
  obtain ⟨labels, spells, isName⟩ := spells_of_readNameFrom direct read
  have short := spells.decodes.short
  rw [List.nil_append] at isName
  refine ⟨labels, spells, ?_, ?_⟩
  · rw [isName, writeName_eq, labelsOf_join, spells.consumed, Dotless, ← flatMap_labelsOf_iff short]
    exact ⟨encode_injective short.flatMap_labelsOf short, fun same => by rw [same]⟩
  · intro dotless buf' fuel' off' next' labels' read' spells'
    constructor
    · rintro rfl
      exact dotless
    · intro dotless'
      have sameName : join labels' = join labels := (spells'.name_eq read').symm.trans isName
      rw [← labelsOf_join_of_dotless spells'.decodes.short dotless', sameName,
        labelsOf_join_of_dotless short dotless]

/-- The labels of `web.prod` are written as they were read. -/
theorem writeName_readName_web :
    readName 3 (encode [[119, 101, 98], [112, 114, 111, 100]] ++ [0, 1]) 0 =
        some (.ok ([119, 101, 98, 46, 112, 114, 111, 100], 10)) ∧
      writeName [119, 101, 98, 46, 112, 114, 111, 100] =
        ((encode [[119, 101, 98], [112, 114, 111, 100]] ++ [0, 1]).drop 0).take (10 - 0) := by
  have short : Short [[119, 101, 98], [112, 114, 111, 100]] := by
    unfold Short
    decide
  have spells := spells_encode short [] [0, 1]
  have read : readName 3 (encode [[119, 101, 98], [112, 114, 111, 100]] ++ [0, 1]) 0 =
      some (.ok ([119, 101, 98, 46, 112, 114, 111, 100], 10)) := by decide
  obtain ⟨labels, spells', written, _⟩ := writeName_readName_iff spells.direct read
  refine ⟨read, written.mpr ?_⟩
  rw [← (spells.decodes.unique spells'.decodes).1]
  unfold Dotless
  decide

/-- The label `a.b` is written as two labels, and read as the name that the two give. -/
theorem dotted_label_splits :
    readName 2 [3, 97, 46, 98, 0] 0 = some (.ok ([97, 46, 98], 5)) ∧
      Spells [3, 97, 46, 98, 0] 0 [[97, 46, 98]] 5 ∧
      writeName [97, 46, 98] = [1, 97, 1, 98, 0] ∧
      readName 3 [1, 97, 1, 98, 0] 0 = some (.ok ([97, 46, 98], 5)) ∧
      Spells [1, 97, 1, 98, 0] 0 [[97], [98]] 5 := by
  refine ⟨by decide, .label (by decide) (.root (by decide)), by decide, by decide, ?_⟩
  exact .label (by decide) (.label (by decide) (.root (by decide)))

end MiniCloud.Dns
