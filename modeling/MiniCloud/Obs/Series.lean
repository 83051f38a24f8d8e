import Mathlib.Algebra.Ring.Int.Defs
import MiniCloud.Library.Fields
import MiniCloud.Obs.Metrics

/-!
# Series and their keys

The registry keeps a series under the text `name|k1=v1|k2=v2`, in which nothing is
escaped.  Series that have the same pieces between all the bars, those of the text and
those within a name or a label, share one entry, and each of them reads what is written
for the other.  The text tells series apart whose names, label keys and label values are
free of the separators.
-/

namespace MiniCloud.Obs

open MiniCloud.Library

/-! ## The text of a series -/

/-- The same name and the same map of labels. -/
def SameSeries (name₁ : String) (labels₁ : Labels) (name₂ : String) (labels₂ : Labels) : Prop :=
  name₁ = name₂ ∧ ∀ k, labels₁.lookup k = labels₂.lookup k

theorem sameSeries_iff_perm {name₁ name₂ : String} {labels₁ labels₂ : Labels} :
    name₁ = name₂ ∧ labels₁.entries.Perm labels₂.entries ↔
      SameSeries name₁ labels₁ name₂ labels₂ := by
  refine and_congr_right fun _ => ⟨fun same k => AList.perm_lookup same, fun same => ?_⟩
  refine List.lookup_ext labels₁.nodupKeys labels₂.nodupKeys fun k v => ?_
  exact (congrArg (v ∈ ·) (same k)).to_iff

instance (name₁ : String) (labels₁ : Labels) (name₂ : String) (labels₂ : Labels) :
    Decidable (SameSeries name₁ labels₁ name₂ labels₂) :=
  decidable_of_iff _ sameSeries_iff_perm

/-- No part of the series has a separator that ends it. -/
structure Plain (name : String) (labels : Labels) : Prop where
  name : '|' ∉ name.toList
  keys : ∀ k ∈ labels.keys, '|' ∉ k.toList ∧ '=' ∉ k.toList
  values : ∀ k v, labels.lookup k = some v → '|' ∉ v.toList

/-- The part of the text for one label. -/
def field (labels : Labels) (k : String) : List Char :=
  k.toList ++ '=' :: ((labels.lookup k).getD "").toList

def sortedKeys (labels : Labels) : List String := labels.keys.insertionSort fun a b => a ≤ b

/-- The name and the texts of the labels, in the order of the keys. -/
def parts (name : String) (labels : Labels) : List (List Char) :=
  name.toList :: (sortedKeys labels).map (field labels)

/-- Cut at every bar within them, the parts of the two series are the same pieces. -/
def SamePieces (name₁ : String) (labels₁ : Labels) (name₂ : String) (labels₂ : Labels) : Prop :=
  Fields.pieces '|' (parts name₁ labels₁) = Fields.pieces '|' (parts name₂ labels₂)

theorem toList_metricKey (name : String) (labels : Labels) :
    (metricKey name labels).toList =
      Fields.row '|' name.toList ((sortedKeys labels).map (field labels)) := by
  have written : ∀ (keys : List String) (b : String),
      (keys.foldl (fun b k => b ++ "|" ++ k ++ "=" ++ (labels.lookup k).getD "") b).toList =
        Fields.row '|' b.toList (keys.map (field labels)) := by
    intro keys
    induction keys with
    | nil =>
        intro b
        exact (Fields.row_nil '|' b.toList).symm
    | cons k rest ih =>
        intro b
        rw [List.foldl_cons, ih, List.map_cons, Fields.row_cons]
        simp [Fields.row, field]
  exact written _ name

theorem metricKey_eq_iff {name₁ name₂ : String} {labels₁ labels₂ : Labels} :
    metricKey name₁ labels₁ = metricKey name₂ labels₂ ↔
      SamePieces name₁ labels₁ name₂ labels₂ := by
  rw [← String.toList_inj, toList_metricKey, toList_metricKey]
  exact Fields.row_eq_iff

/-- The longer text goes on behind a bar where the shorter one ends. -/
def Continues (short long : String) : Prop :=
  ∃ more, long.toList = short.toList ++ '|' :: more

theorem metricKey_singleton (name k v : String) :
    metricKey name (AList.singleton k v) = name ++ "|" ++ k ++ "=" ++ v := by
  have found : (AList.singleton k v : Labels).lookup k = some v :=
    AList.mem_lookup_iff.mpr (List.mem_singleton.mpr rfl)
  unfold metricKey
  rw [AList.keys_singleton, List.insertionSort_cons, List.insertionSort_nil, List.orderedInsert_nil,
    List.foldl_cons, List.foldl_nil, found, Option.getD_some]

/-- Some labels make one text of two names exactly if one name goes on behind the other. -/
theorem exists_metricKey_eq_iff (name₁ name₂ : String) :
    (∃ labels₁ labels₂, metricKey name₁ labels₁ = metricKey name₂ labels₂) ↔
      name₁ = name₂ ∨ Continues name₁ name₂ ∨ Continues name₂ name₁ := by
  -- whatever stands behind the bar is a part of the key of a label
  have continued : ∀ {short long : String}, Continues short long →
      ∃ labels, metricKey short labels = metricKey long (AList.singleton "" "") := by
    rintro short long ⟨more, isLong⟩
    refine ⟨AList.singleton (String.ofList more ++ "|") "", ?_⟩
    rw [metricKey_singleton, metricKey_singleton, ← String.toList_inj]
    simp [isLong]
  constructor
  · rintro ⟨labels₁, labels₂, same⟩
    rw [← String.toList_inj, toList_metricKey, toList_metricKey] at same
    rw [← String.toList_inj]
    exact Fields.heads_of_row same
  · rintro (rfl | goesOn | goesOn)
    · exact ⟨∅, ∅, rfl⟩
    · obtain ⟨labels, same⟩ := continued goesOn
      exact ⟨labels, _, same⟩
    · obtain ⟨labels, same⟩ := continued goesOn
      exact ⟨_, labels, same.symm⟩

theorem mem_sortedKeys {labels : Labels} {k : String} : k ∈ sortedKeys labels ↔ k ∈ labels.keys :=
  List.mem_insertionSort _

theorem sortedKeys_congr {labels₁ labels₂ : Labels}
    (same : ∀ k, labels₁.lookup k = labels₂.lookup k) : sortedKeys labels₁ = sortedKeys labels₂ := by
  have sameKeys : labels₁.keys.Perm labels₂.keys := by
    refine (List.perm_ext_iff_of_nodup labels₁.keys_nodup labels₂.keys_nodup).mpr fun k => ?_
    change k ∈ labels₁ ↔ k ∈ labels₂
    rw [← AList.lookup_isSome, ← AList.lookup_isSome, same k]
  have sorted (keys : List String) : (keys.insertionSort fun a b => a ≤ b).Pairwise (· ≤ ·) :=
    List.pairwise_insertionSort _ keys
  refine List.Perm.eq_of_pairwise (fun a b _ _ => String.le_antisymm) (sorted _) (sorted _) ?_
  exact ((List.perm_insertionSort _ _).trans sameKeys).trans (List.perm_insertionSort _ _).symm

/-- The text of a series does not depend on the order of the map of labels. -/
theorem metricKey_of_sameSeries {name₁ name₂ : String} {labels₁ labels₂ : Labels}
    (same : SameSeries name₁ labels₁ name₂ labels₂) :
    metricKey name₁ labels₁ = metricKey name₂ labels₂ := by
  have sameKeys := sortedKeys_congr same.2
  unfold sortedKeys at sameKeys
  unfold metricKey
  rw [sameKeys, same.1]
  simp only [same.2]

theorem plain_field {name : String} {labels : Labels} (plain : Plain name labels) {k : String}
    (member : k ∈ labels.keys) : '|' ∉ field labels k := by
  obtain ⟨v, found⟩ := Option.isSome_iff_exists.mp (AList.lookup_isSome.mpr member)
  have plainKey := (plain.keys k member).1
  have plainValue := plain.values k v found
  unfold field
  rw [found]
  simp only [Option.getD_some, List.mem_append, List.mem_cons, not_or]
  exact ⟨plainKey, by decide, plainValue⟩

/-- The key of a label stands before the first `=` of its field. -/
theorem labels_of_fields {labels₁ labels₂ : Labels} {keys₁ keys₂ : List String}
    (plain₁ : ∀ k ∈ keys₁, '=' ∉ k.toList) (plain₂ : ∀ k ∈ keys₂, '=' ∉ k.toList)
    (same : keys₁.map (field labels₁) = keys₂.map (field labels₂)) :
    keys₁ = keys₂ ∧ ∀ k ∈ keys₁, (labels₁.lookup k).getD "" = (labels₂.lookup k).getD "" := by
  induction keys₁ generalizing keys₂ with
  | nil =>
      cases keys₂ with
      | nil => exact ⟨rfl, fun k member => by cases member⟩
      | cons k₂ rest₂ => cases same
  | cons k₁ rest₁ ih =>
      cases keys₂ with
      | nil => cases same
      | cons k₂ rest₂ =>
          obtain ⟨sameField, sameRest⟩ := List.cons.inj same
          obtain ⟨sameKey, sameValue⟩ := Fields.cut_first sameField
            (plain₁ k₁ List.mem_cons_self) (plain₂ k₂ List.mem_cons_self)
          obtain ⟨sameKeys, sameValues⟩ := ih
            (fun k member => plain₁ k (List.mem_cons_of_mem _ member))
            (fun k member => plain₂ k (List.mem_cons_of_mem _ member)) sameRest
          have isKey : k₁ = k₂ := String.toList_inj.mp sameKey
          subst isKey
          refine ⟨by rw [sameKeys], ?_⟩
          intro k member
          rcases List.mem_cons.mp member with rfl | later
          · exact String.toList_inj.mp sameValue
          · exact sameValues k later

/-- The keys and their values are the map. -/
theorem lookup_of_sorted {labels₁ labels₂ : Labels}
    (sameKeys : sortedKeys labels₁ = sortedKeys labels₂)
    (sameValues : ∀ k ∈ sortedKeys labels₁,
      (labels₁.lookup k).getD "" = (labels₂.lookup k).getD "") (k : String) :
    labels₁.lookup k = labels₂.lookup k := by
  have sameMember : k ∈ labels₁.keys ↔ k ∈ labels₂.keys := by
    rw [← mem_sortedKeys, sameKeys, mem_sortedKeys]
  by_cases member : k ∈ labels₁.keys
  · obtain ⟨v₁, found₁⟩ := Option.isSome_iff_exists.mp (AList.lookup_isSome.mpr member)
    obtain ⟨v₂, found₂⟩ := Option.isSome_iff_exists.mp
      (AList.lookup_isSome.mpr (sameMember.mp member))
    have sameValue := sameValues k (mem_sortedKeys.mpr member)
    rw [found₁, found₂] at sameValue ⊢
    exact congrArg some sameValue
  · rw [AList.lookup_eq_none.mpr member,
      AList.lookup_eq_none.mpr fun other => member (sameMember.mpr other)]

theorem pieces_of_plain {name : String} {labels : Labels} (plain : Plain name labels) :
    Fields.pieces '|' (parts name labels) = parts name labels := by
  refine Fields.pieces_of_plain ?_
  intro part member
  rcases List.mem_cons.mp member with rfl | isField
  · exact plain.name
  · obtain ⟨k, isKey, rfl⟩ := List.mem_map.mp isField
    exact plain_field plain (mem_sortedKeys.mp isKey)

/-- The pieces of a plain series determine the series. -/
theorem sameSeries_of_pieces {name₁ name₂ : String} {labels₁ labels₂ : Labels}
    (plain₁ : Plain name₁ labels₁) (plain₂ : Plain name₂ labels₂)
    (same : SamePieces name₁ labels₁ name₂ labels₂) : SameSeries name₁ labels₁ name₂ labels₂ := by
  unfold SamePieces at same
  rw [pieces_of_plain plain₁, pieces_of_plain plain₂] at same
  obtain ⟨sameName, sameFields⟩ := List.cons.inj same
  obtain ⟨sameKeys, sameValues⟩ := labels_of_fields
    (fun k member => (plain₁.keys k (mem_sortedKeys.mp member)).2)
    (fun k member => (plain₂.keys k (mem_sortedKeys.mp member)).2) sameFields
  exact ⟨String.toList_inj.mp sameName, lookup_of_sorted sameKeys sameValues⟩

/-! ## What a call on a series changes -/

section Calls

variable {Value : Type} [Zero Value]

theorem lookup_set_self (m : Metrics Value) (name : String) (v : Value) (labels : Labels) :
    (set m name v labels).lookup (metricKey name labels) =
      some (match m.lookup (metricKey name labels) with
        | none => ⟨name, .counter, labels, v, [], [], 0, 0⟩
        | some cur => { cur with value := v }) := by
  unfold set
  cases m.lookup (metricKey name labels) with
  | none => exact AList.lookup_insert m
  | some cur => exact AList.lookup_insert m

/-- A call changes the entry under the key of its series only. -/
theorem lookup_set_ne (m : Metrics Value) (name : String) (v : Value) (labels : Labels)
    {key : String} (other : key ≠ metricKey name labels) :
    (set m name v labels).lookup key = m.lookup key := by
  unfold set
  split
  · exact AList.lookup_insert_ne other
  · exact AList.lookup_insert_ne other

variable [Add Value] [LE Value] [DecidableLE Value]

/-- The entry after an observation; `none` is a panic. -/
def observeEntry (cur : Metric Value) (v : Value) : Option (Metric Value) :=
  (cur.buckets.zipIdx.foldlM (fun counts b => if v ≤ b.1 then bump counts b.2 else some counts)
    cur.bucketCounts).bind fun counts =>
      match counts.length with
      | 0 => none
      | last + 1 =>
          (bump counts last).map fun counts =>
            { cur with bucketCounts := counts, sum := cur.sum + v, count := cur.count + 1 }

theorem length_bump {counts counts' : List UInt64} {i : Nat} (bumped : bump counts i = some counts') :
    counts'.length = counts.length := by
  unfold bump at bumped
  split at bumped
  · rw [← Option.some.inj bumped, List.length_modify]
  · cases bumped

omit [Zero Value] [Add Value] in
theorem length_bumps (v : Value) {bs : List (Value × Nat)} {counts counts' : List UInt64}
    (bumped : bs.foldlM (fun counts b => if v ≤ b.1 then bump counts b.2 else some counts) counts =
      some counts') : counts'.length = counts.length := by
  induction bs generalizing counts with
  | nil =>
      cases Option.some.inj bumped
      rfl
  | cons b rest ih =>
      rw [List.foldlM_cons] at bumped
      obtain ⟨middle, first, later⟩ := Option.bind_eq_some_iff.mp bumped
      rw [ih later]
      split at first
      · exact length_bump first
      · rw [Option.some.inj first]

omit [Zero Value] in
/-- An observation changes the counts only, and not how many there are. -/
theorem shape_observeEntry {cur next : Metric Value} {v : Value}
    (observed : observeEntry cur v = some next) :
    next.name = cur.name ∧ next.labels = cur.labels ∧ next.type = cur.type ∧
      next.buckets = cur.buckets ∧ next.bucketCounts.length = cur.bucketCounts.length := by
  obtain ⟨counts, counted, finished⟩ := Option.bind_eq_some_iff.mp observed
  have sameLength := length_bumps v counted
  split at finished
  · cases finished
  · obtain ⟨counts', bumped, rfl⟩ := Option.map_eq_some_iff.mp finished
    exact ⟨rfl, rfl, rfl, rfl, (length_bump bumped).trans sameLength⟩

/-- `Observe` writes the entry of its series only, and reads no other. -/
theorem observe_eq (m : Metrics Value) (name : String) (v : Value) (labels : Labels)
    (buckets : List Value) :
    observe m name v labels buckets =
      (observeEntry ((m.lookup (metricKey name labels)).getD
        ⟨name, .histogram, labels, 0, buckets, List.replicate (buckets.length + 1) 0, 0, 0⟩) v).map
          fun cur => m.insert (metricKey name labels) cur := by
  -- whichever entry the call starts from, it is put back under the same key
  have finish (cur : Metric Value) (counted : Option (List UInt64)) :
      (counted.bind fun counts =>
        match counts.length with
        | 0 => none
        | last + 1 =>
            (bump counts last).map fun counts =>
              m.insert (metricKey name labels)
                { cur with bucketCounts := counts, sum := cur.sum + v, count := cur.count + 1 }) =
        (counted.bind fun counts =>
          match counts.length with
          | 0 => none
          | last + 1 =>
              (bump counts last).map fun counts =>
                { cur with
                  bucketCounts := counts, sum := cur.sum + v, count := cur.count + 1 }).map
          fun cur => m.insert (metricKey name labels) cur := by
    cases counted with
    | none => rfl
    | some counts =>
        simp only [Option.bind_some]
        cases counts.length with
        | zero => rfl
        | succ last => simp only [Option.map_map, Function.comp_def]
  unfold observe observeEntry
  cases m.lookup (metricKey name labels) with
  | none => exact finish _ _
  | some cur => exact finish cur _

theorem lookup_observe_ne {m m' : Metrics Value} {name : String} {v : Value} {labels : Labels}
    {buckets : List Value} (observed : observe m name v labels buckets = some m') {key : String}
    (other : key ≠ metricKey name labels) : m'.lookup key = m.lookup key := by
  rw [observe_eq] at observed
  obtain ⟨_, _, rfl⟩ := Option.map_eq_some_iff.mp observed
  exact AList.lookup_insert_ne other

/-- Calls on the first series leave what `Get` returns for the second. -/
structure Untouched (Value : Type) [Zero Value] [Add Value] [LE Value] [DecidableLE Value]
    (name₁ : String) (labels₁ : Labels) (name₂ : String) (labels₂ : Labels) : Prop where
  bySet : ∀ (m : Metrics Value) (v : Value),
    get (set m name₁ v labels₁) name₂ labels₂ = get m name₂ labels₂
  byAdd : ∀ (m : Metrics Value) (delta : Value),
    get (add m name₁ delta labels₁) name₂ labels₂ = get m name₂ labels₂
  byObserve : ∀ (m m' : Metrics Value) (v : Value) (buckets : List Value),
    observe m name₁ v labels₁ buckets = some m' → get m' name₂ labels₂ = get m name₂ labels₂

theorem untouched_of_metricKey {name₁ name₂ : String} {labels₁ labels₂ : Labels}
    (different : metricKey name₁ labels₁ ≠ metricKey name₂ labels₂) :
    Untouched Value name₁ labels₁ name₂ labels₂ := by
  have unchanged : ∀ {m m' : Metrics Value},
      m'.lookup (metricKey name₂ labels₂) = m.lookup (metricKey name₂ labels₂) →
        get m' name₂ labels₂ = get m name₂ labels₂ := by
    intro m m' same
    unfold get
    rw [same]
  constructor
  · intro m v
    exact unchanged (lookup_set_ne m name₁ v labels₁ different.symm)
  · intro m delta
    exact unchanged (lookup_set_ne m name₁ _ labels₁ different.symm)
  · intro m m' v buckets observed
    exact unchanged (lookup_observe_ne observed different.symm)

/-- The texts of two different series differ, and the calls on one leave the value of the
other alone, exactly when the series are not the same pieces; plain series are not. -/
theorem series_apart [Nontrivial Value] {name₁ name₂ : String} {labels₁ labels₂ : Labels}
    (different : ¬ SameSeries name₁ labels₁ name₂ labels₂) :
    (metricKey name₁ labels₁ ≠ metricKey name₂ labels₂ ↔
        ¬ SamePieces name₁ labels₁ name₂ labels₂) ∧
      (Untouched Value name₁ labels₁ name₂ labels₂ ↔
        ¬ SamePieces name₁ labels₁ name₂ labels₂) ∧
      (Plain name₁ labels₁ → Plain name₂ labels₂ →
        ¬ SamePieces name₁ labels₁ name₂ labels₂) := by
  have texts := not_congr (@metricKey_eq_iff name₁ name₂ labels₁ labels₂)
  refine ⟨texts, ⟨?_, fun apart => untouched_of_metricKey (texts.mpr apart)⟩, ?_⟩
  · intro untouched pieces
    have same := metricKey_eq_iff.mpr pieces
    obtain ⟨v, nonzero⟩ := exists_ne (0 : Value)
    have read := untouched.bySet ∅ v
    have written : get (set (∅ : Metrics Value) name₁ v labels₁) name₂ labels₂ = v := by
      have own := get_set (∅ : Metrics Value) name₁ v labels₁
      unfold get at own ⊢
      rwa [← same]
    rw [written] at read
    exact nonzero read
  · intro plain₁ plain₂ pieces
    exact different (sameSeries_of_pieces plain₁ plain₂ pieces)

end Calls

theorem plain_singleton {name k v : String} (plainName : '|' ∉ name.toList)
    (plainKey : '|' ∉ k.toList ∧ '=' ∉ k.toList) (plainValue : '|' ∉ v.toList) :
    Plain name (AList.singleton k v) := by
  constructor
  · exact plainName
  · intro k' member
    rw [AList.keys_singleton, List.mem_singleton] at member
    rw [member]
    exact plainKey
  · intro k' v' found
    have entry := AList.mem_lookup_iff.mp found
    obtain ⟨rfl, sameValue⟩ := Sigma.mk.inj (List.mem_singleton.mp entry)
    rw [eq_of_heq sameValue]
    exact plainValue

/-- The requests for two paths are counted apart. -/
theorem paths_counted_apart :
    metricKey "requests" (AList.singleton "path" "/v1/users") ≠
        metricKey "requests" (AList.singleton "path" "/v1/nodes") ∧
      Untouched Int "requests" (AList.singleton "path" "/v1/users") "requests"
        (AList.singleton "path" "/v1/nodes") := by
  have different : ¬ SameSeries "requests" (AList.singleton "path" "/v1/users") "requests"
      (AList.singleton "path" "/v1/nodes") := by
    rintro ⟨_, same⟩
    exact absurd (same "path") (by decide)
  obtain ⟨texts, untouched, plain⟩ := @series_apart Int _ _ _ _ _ _ _ _ _ different
  have apart := plain (plain_singleton (by decide) (by decide) (by decide))
    (plain_singleton (by decide) (by decide) (by decide))
  exact ⟨texts.mpr apart, untouched.mpr apart⟩

/-- A name that reads like a label: the series share one value. -/
theorem name_read_as_label :
    ¬ SameSeries "a|k=v" ∅ "a" (AList.singleton "k" "v") ∧
      metricKey "a|k=v" ∅ = metricKey "a" (AList.singleton "k" "v") ∧
      get (∅ : Metrics Int) "a" (AList.singleton "k" "v") = 0 ∧
      get (set (∅ : Metrics Int) "a|k=v" 7 ∅) "a" (AList.singleton "k" "v") = 7 := by
  refine ⟨?_, by decide, by decide, by decide⟩
  rintro ⟨sameName, _⟩
  exact absurd sameName (by decide)

end MiniCloud.Obs
