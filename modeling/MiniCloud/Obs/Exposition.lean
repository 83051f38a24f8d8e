import MiniCloud.Library.Layers
import MiniCloud.Library.Text
import MiniCloud.Obs.Series

/-!
# The text of the registry

`TextExposition` writes the series in the order of their names: a counter as one sample, a
histogram as one sample for each bucket, one for all values, and two for the sum and the
count.  The buckets have the labels of the series and the boundary; the sum and the count
are written without labels, so two histograms of one name cannot be told apart there.
Names and label keys are written as they are, so series with braces in a name or signs of
equality in a key may be printed alike.

The visiting order of the registry is that of a Go map, any order of its keys; the sorting
and the formatting of numbers and strings are those of the Go packages.
-/

namespace MiniCloud.Obs

open MiniCloud.Library
open MiniCloud.Library.Text (hasSuffix)

def MetricType.text : MetricType → String
  | .counter => "counter"
  | .histogram => "histogram"

/-- `fmt` with the verbs `%g` and `%q`. -/
structure Formats (Value : Type) where
  float : Value → String
  quote : String → String

/-- A sample; without a label set it is printed without braces. -/
structure Sample where
  name : String
  labels : Option Labels
  value : String

inductive Line where
  | help (name : String)
  | type (name : String) (kind : MetricType)
  | sample (s : Sample)

/-- The second map over the first. -/
def mergeLabels (a b : Labels) : Labels := overlay a b

section Text

variable {Value : Type} (fm : Formats Value)

/-- One label, `fmt.Sprintf("%s=%q", k, labels[k])`. -/
def labelText (labels : Labels) (k : String) : String :=
  k ++ "=" ++ fm.quote ((labels.lookup k).getD "")

def labelsString (labels : Labels) : String :=
  String.intercalate "," ((sortedKeys labels).map (labelText fm labels))

/-- A name with labels in braces. -/
def braced (name : String) (labels : Labels) : String :=
  name ++ "\x7b" ++ labelsString fm labels ++ "\x7d"

/-- The name and the label set of a sample, as they are printed. -/
def Sample.head (s : Sample) : String :=
  match s.labels with
  | none => s.name
  | some labels => braced fm s.name labels

def Sample.text (s : Sample) : String := s.head fm ++ " " ++ s.value ++ "\n"

/-- `Help` is never set. -/
def Line.text : Line → String
  | .help name => "# HELP " ++ name ++ " \n"
  | .type name kind => "# TYPE " ++ name ++ " " ++ kind.text ++ "\n"
  | .sample s => s.text fm

def bucketSample (mm : Metric Value) (le : String) (count : UInt64) : Sample :=
  ⟨mm.name ++ "_bucket", some (mergeLabels mm.labels (AList.singleton "le" le)), toString count⟩

/-- The samples of a series; `none` is the panic of an index out of range. -/
def samples (mm : Metric Value) : Option (List Sample) :=
  match mm.type with
  | .counter => some [⟨mm.name, some mm.labels, fm.float mm.value⟩]
  | .histogram =>
      (mm.buckets.zipIdx.mapM fun bk =>
        (mm.bucketCounts[bk.2]?).map (bucketSample mm (fm.float bk.1))).bind fun buckets =>
          (mm.bucketCounts.getLast?).map fun last =>
            buckets ++ [bucketSample mm "+Inf" last,
              ⟨mm.name ++ "_sum", none, fm.float mm.sum⟩,
              ⟨mm.name ++ "_count", none, toString mm.count⟩]

/-- The loop over the series, with the names that have been seen. -/
def lines (seen : List String) : List (Metric Value) → Option (List Line)
  | [] => some []
  | mm :: rest =>
      (samples fm mm).bind fun own =>
        (lines (mm.name :: seen) rest).map fun later =>
          (if mm.name ∈ seen then [] else [.help mm.name, .type mm.name mm.type]) ++
            own.map .sample ++ later

def snapshot (m : Metrics Value) (order : List String) : List (Metric Value) :=
  (order.filterMap m.lookup).insertionSort fun a b => a.name ≤ b.name

def textExposition (m : Metrics Value) (order : List String) : Option String :=
  (lines fm [] (snapshot m order)).map fun ls => String.join (ls.map (Line.text fm))

end Text

/-! ## Samples that cannot be told apart -/

def Line.sample? : Line → Option Sample
  | .sample s => some s
  | _ => none

def sampleLines (ls : List Line) : List Sample := ls.filterMap Line.sample?

/-- The name ends like the name of a sample of a histogram. -/
def Reserved (name : String) : Bool :=
  hasSuffix name "_bucket" || hasSuffix name "_sum" || hasSuffix name "_count"

/-- The registries that `Set`, `Add` and `Observe` build with other names.  A call that
panics leaves the registry as it was. -/
inductive Built {Value : Type} [Zero Value] [Add Value] [LE Value] [DecidableLE Value] :
    Metrics Value → Prop where
  | new : Built ∅
  | set {m : Metrics Value} {name : String} (built : Built m) (plain : Reserved name = false)
      (v : Value) (labels : Labels) : Built (Obs.set m name v labels)
  | add {m : Metrics Value} {name : String} (built : Built m) (plain : Reserved name = false)
      (delta : Value) (labels : Labels) : Built (Obs.add m name delta labels)
  | observe {m m' : Metrics Value} {name : String} {v : Value} {labels : Labels}
      {buckets : List Value} (built : Built m) (plain : Reserved name = false)
      (observed : Obs.observe m name v labels buckets = some m') : Built m'

/-! ## The entries of a registry -/

/-- An entry is under the text of its series, with a plain name, and a histogram has a count for
each bucket and one more. -/
structure Entered {Value : Type} (key : String) (cur : Metric Value) : Prop where
  key : key = metricKey cur.name cur.labels
  plain : Reserved cur.name = false
  sized : cur.type = .histogram → cur.bucketCounts.length = cur.buckets.length + 1

section Built

variable {Value : Type} [Zero Value] [Add Value] [LE Value] [DecidableLE Value]

omit [Add Value] [LE Value] [DecidableLE Value] in
theorem entered_set {m : Metrics Value} {name : String} (v : Value) (labels : Labels)
    (entered : ∀ key cur, m.lookup key = some cur → Entered key cur) (plain : Reserved name = false) :
    ∀ key cur, (set m name v labels).lookup key = some cur → Entered key cur := by
  intro key cur found
  by_cases isKey : key = metricKey name labels
  · subst isKey
    rw [lookup_set_self] at found
    cases before : m.lookup (metricKey name labels) with
    | none =>
        rw [before] at found
        cases found
        exact ⟨rfl, plain, fun isHistogram => by cases isHistogram⟩
    | some old =>
        rw [before] at found
        cases found
        obtain ⟨sameKey, plainOld, sized⟩ := entered _ old before
        exact ⟨sameKey, plainOld, sized⟩
  · rw [lookup_set_ne m name v labels isKey] at found
    exact entered key cur found

theorem Built.entered {m : Metrics Value} (built : Built m) :
    ∀ key cur, m.lookup key = some cur → Entered key cur := by
  induction built with
  | new =>
      intro key cur found
      rw [AList.lookup_empty] at found
      cases found
  | set _ plain v labels ih => exact entered_set v labels ih plain
  | add _ plain delta labels ih => exact entered_set _ labels ih plain
  | @observe m m' name v labels buckets _ plain observed ih =>
      intro key cur found
      by_cases isKey : key = metricKey name labels
      · subst isKey
        rw [observe_eq] at observed
        obtain ⟨next, entry, rfl⟩ := Option.map_eq_some_iff.mp observed
        rw [AList.lookup_insert] at found
        cases found
        obtain ⟨sameName, sameLabels, sameType, sameBuckets, sameLength⟩ := shape_observeEntry entry
        have start : Entered (metricKey name labels) ((m.lookup (metricKey name labels)).getD
            ⟨name, .histogram, labels, 0, buckets, List.replicate (buckets.length + 1) 0, 0, 0⟩) := by
          cases before : m.lookup (metricKey name labels) with
          | none => exact ⟨rfl, plain, fun _ => List.length_replicate⟩
          | some old => exact ih _ old before
        refine ⟨?_, ?_, ?_⟩
        · rw [sameName, sameLabels]
          exact start.key
        · rw [sameName]
          exact start.plain
        · rw [sameType, sameLength, sameBuckets]
          exact start.sized
      · rw [lookup_observe_ne observed isKey] at found
        exact ih key cur found

end Built

/-! ## The heads of the lines -/

section Heads

variable {Value : Type} (fm : Formats Value)

/-- The values of `le`. -/
def boundaries (mm : Metric Value) : List String := mm.buckets.map fm.float ++ ["+Inf"]

def bucketHead (mm : Metric Value) (le : String) : String :=
  braced fm (mm.name ++ "_bucket") (mergeLabels mm.labels (AList.singleton "le" le))

/-- The heads of a series that have labels. -/
def labelledHeads (mm : Metric Value) : List String :=
  match mm.type with
  | .counter => [braced fm mm.name mm.labels]
  | .histogram => (boundaries fm mm).map (bucketHead fm mm)

/-- The heads of a series without labels. -/
def bareHeads (mm : Metric Value) : List String :=
  match mm.type with
  | .counter => []
  | .histogram => [mm.name ++ "_sum", mm.name ++ "_count"]

def heads (mm : Metric Value) : List String := labelledHeads fm mm ++ bareHeads mm

theorem bucketSamples_return (mm : Metric Value) (buckets : List Value) (k : Nat)
    (counted : k + buckets.length ≤ mm.bucketCounts.length) :
    ∃ ss, ((buckets.zipIdx k).mapM fun bk =>
        (mm.bucketCounts[bk.2]?).map (bucketSample mm (fm.float bk.1))) = some ss ∧
      ss.map (Sample.head fm) = (buckets.map fm.float).map (bucketHead fm mm) := by
  induction buckets generalizing k with
  | nil => exact ⟨[], rfl, rfl⟩
  | cons b rest ih =>
      rw [List.length_cons] at counted
      obtain ⟨ss, later, ids⟩ := ih (k + 1) (by omega)
      have inRange : k < mm.bucketCounts.length := by omega
      refine ⟨bucketSample mm (fm.float b) mm.bucketCounts[k] :: ss, ?_, ?_⟩
      · rw [List.zipIdx_cons, List.mapM_cons, List.getElem?_eq_getElem inRange, later]
        rfl
      · rw [List.map_cons, ids]
        rfl

/-- The loop reads no count out of range. -/
theorem samples_return {key : String} {mm : Metric Value} (entered : Entered key mm) :
    ∃ ss, samples fm mm = some ss ∧ ss.map (Sample.head fm) = heads fm mm := by
  unfold samples heads labelledHeads bareHeads
  cases isType : mm.type with
  | counter => exact ⟨_, rfl, rfl⟩
  | histogram =>
      have sized := entered.sized isType
      obtain ⟨ss, returned, ids⟩ := bucketSamples_return fm mm mm.buckets 0 (by omega)
      have nonempty : mm.bucketCounts ≠ [] := List.ne_nil_of_length_pos (by omega)
      refine ⟨ss ++ [bucketSample mm "+Inf" (mm.bucketCounts.getLast nonempty),
        ⟨mm.name ++ "_sum", none, fm.float mm.sum⟩,
        ⟨mm.name ++ "_count", none, toString mm.count⟩], ?_, ?_⟩
      · simp only [returned, Option.bind_some, List.getLast?_eq_some_getLast nonempty,
          Option.map_some]
      · rw [List.map_append, ids, boundaries, List.map_append, List.append_assoc]
        rfl

theorem sampleLines_append (ls ls' : List Line) :
    sampleLines (ls ++ ls') = sampleLines ls ++ sampleLines ls' := List.filterMap_append

theorem sampleLines_map (ss : List Sample) : sampleLines (ss.map .sample) = ss := by
  unfold sampleLines
  rw [List.filterMap_map]
  exact List.filterMap_some

/-- The headers aside, the lines are the samples of the series one after the other. -/
theorem lines_return {mts : List (Metric Value)} (seen : List String)
    (returns : ∀ mm ∈ mts, ∃ ss, samples fm mm = some ss ∧ ss.map (Sample.head fm) = heads fm mm) :
    ∃ ls, lines fm seen mts = some ls ∧
      (sampleLines ls).map (Sample.head fm) = mts.flatMap (heads fm) := by
  induction mts generalizing seen with
  | nil => exact ⟨[], rfl, rfl⟩
  | cons mm rest ih =>
      obtain ⟨own, ownReturned, ownIDs⟩ := returns mm List.mem_cons_self
      obtain ⟨later, laterReturned, laterIDs⟩ := ih (mm.name :: seen)
        fun other member => returns other (List.mem_cons_of_mem _ member)
      have noSample : sampleLines (if mm.name ∈ seen then []
          else [.help mm.name, .type mm.name mm.type]) = [] := by
        split
        · rfl
        · rfl
      refine ⟨(if mm.name ∈ seen then [] else [.help mm.name, .type mm.name mm.type]) ++
        own.map .sample ++ later, ?_, ?_⟩
      · rw [lines, ownReturned, Option.bind_some, laterReturned, Option.map_some]
      · rw [sampleLines_append, sampleLines_append, noSample, sampleLines_map, List.nil_append,
          List.map_append, ownIDs, laterIDs, List.flatMap_cons]

/-! ## The lines of one series -/

/-- With one label changed, the text of the labels changes as the value is quoted. -/
theorem intercalate_changed {f g : String → String} {keys : List String} (distinct : keys.Nodup)
    {key : String} (member : key ∈ keys) (others : ∀ k, k ≠ key → f k = g k)
    (same : String.intercalate "," (keys.map f) = String.intercalate "," (keys.map g)) :
    f key = g key := by
  induction keys with
  | nil => cases member
  | cons k rest ih =>
      obtain ⟨fresh, distinctRest⟩ := List.nodup_cons.mp distinct
      by_cases isKey : k = key
      · subst isKey
        have sameRest : rest.map f = rest.map g :=
          List.map_congr_left fun other later => others other fun isKey => fresh (isKey ▸ later)
        rw [List.map_cons, List.map_cons, sameRest] at same
        cases hasRest : rest.map g with
        | nil =>
            rw [hasRest] at same
            simpa using same
        | cons second others =>
            rw [hasRest, String.intercalate_cons_cons, String.intercalate_cons_cons,
              String.append_assoc, String.append_assoc] at same
            exact (String.append_left_inj _).mp same
      · have later := (List.mem_cons.mp member).resolve_left (Ne.symm isKey)
        refine ih distinctRest later ?_
        cases rest with
        | nil => cases later
        | cons second others' =>
            rw [List.map_cons, List.map_cons, List.map_cons, List.map_cons,
              String.intercalate_cons_cons, String.intercalate_cons_cons, others k isKey] at same
            exact (String.append_right_inj _).mp same

theorem braced_inj {name : String} {labels labels' : Labels} :
    braced fm name labels = braced fm name labels' ↔
      labelsString fm labels = labelsString fm labels' := by
  unfold braced
  rw [String.append_left_inj, String.append_right_inj]

/-- The buckets of a histogram are printed alike when the boundaries are. -/
theorem bucketHead_eq_iff (mm : Metric Value) (le le' : String) :
    bucketHead fm mm le = bucketHead fm mm le' ↔ fm.quote le = fm.quote le' := by
  have sameKeys : sortedKeys (mm.labels.insert "le" le) = sortedKeys (mm.labels.insert "le" le') := by
    unfold sortedKeys
    rw [AList.keys_insert, AList.keys_insert]
  have others : ∀ k, k ≠ "le" → labelText fm (mm.labels.insert "le" le) k =
      labelText fm (mm.labels.insert "le" le') k := by
    intro k other
    unfold labelText
    rw [AList.lookup_insert_ne other, AList.lookup_insert_ne other]
  have own : ∀ x, labelText fm (mm.labels.insert "le" x) "le" = "le=" ++ fm.quote x := by
    intro x
    rw [labelText, AList.lookup_insert]
    rfl
  rw [bucketHead, bucketHead, braced_inj]
  change labelsString fm (mm.labels.insert "le" le) = labelsString fm (mm.labels.insert "le" le') ↔ _
  unfold labelsString
  rw [sameKeys]
  constructor
  · intro same
    have distinct : (sortedKeys (mm.labels.insert "le" le')).Nodup :=
      (List.perm_insertionSort _ _).nodup_iff.mpr (mm.labels.insert "le" le').keys_nodup
    have member : "le" ∈ sortedKeys (mm.labels.insert "le" le') := by
      rw [mem_sortedKeys, AList.keys_insert]
      exact List.mem_cons_self
    have changed := intercalate_changed distinct member others same
    rw [own, own] at changed
    exact (String.append_right_inj _).mp changed
  · intro sameQuote
    refine congrArg _ (List.map_congr_left fun k _ => ?_)
    by_cases isLe : k = "le"
    · rw [isLe, own, own, sameQuote]
    · exact others k isLe

/-- What the names of the samples of a histogram end in. -/
def tails : List String := ["_bucket", "_sum", "_count"]

theorem suffixes_of_append {s t tail tail' : String} (same : s ++ tail = t ++ tail') :
    tail.toList <:+ tail'.toList ∨ tail'.toList <:+ tail.toList := by
  have sameText : s.toList ++ tail.toList = t.toList ++ tail'.toList := by
    rw [← String.toList_append, same, String.toList_append]
  refine List.suffix_or_suffix_of_suffix (List.suffix_append s.toList _) ?_
  rw [sameText]
  exact List.suffix_append t.toList _

/-- No tail is the end of another. -/
theorem eq_of_tails {tail tail' : String} (isTail : tail ∈ tails) (isTail' : tail' ∈ tails)
    (ends : tail.toList <:+ tail'.toList ∨ tail'.toList <:+ tail.toList) : tail = tail' := by
  have apart : ∀ a ∈ tails, ∀ b ∈ tails,
      (a.toList.isSuffixOf b.toList || b.toList.isSuffixOf a.toList) = true → a = b := by decide
  refine apart tail isTail tail' isTail' ?_
  rw [Bool.or_eq_true, List.isSuffixOf_iff_suffix, List.isSuffixOf_iff_suffix]
  exact ends

theorem append_tail_inj {s t tail tail' : String} (isTail : tail ∈ tails) (isTail' : tail' ∈ tails)
    (same : s ++ tail = t ++ tail') : s = t ∧ tail = tail' := by
  have sameTail := eq_of_tails isTail isTail' (suffixes_of_append same)
  subst sameTail
  refine ⟨?_, rfl⟩
  rw [← String.toList_inj] at same ⊢
  rw [String.toList_append, String.toList_append] at same
  exact List.append_cancel_right same

/-- A head with labels ends in a brace, and one without does not. -/
theorem braced_ne_tail {name name' tail : String} (labels : Labels) (isTail : tail ∈ tails) :
    braced fm name labels ≠ name' ++ tail := by
  intro same
  unfold braced at same
  have ends := suffixes_of_append same
  have apart : ∀ t ∈ tails, ("\x7d".toList.isSuffixOf t.toList || t.toList.isSuffixOf "\x7d".toList) =
      false := by decide
  have isFalse := apart tail isTail
  rw [Bool.or_eq_false_iff] at isFalse
  rcases ends with ends | ends
  · exact absurd (List.isSuffixOf_iff_suffix.mpr ends) (Bool.eq_false_iff.mp isFalse.1)
  · exact absurd (List.isSuffixOf_iff_suffix.mpr ends) (Bool.eq_false_iff.mp isFalse.2)

theorem mem_labelledHeads {mm : Metric Value} {x : String} (member : x ∈ labelledHeads fm mm) :
    (mm.type = .counter ∧ x = braced fm mm.name mm.labels) ∨
      (mm.type = .histogram ∧
        ∃ le, x = braced fm (mm.name ++ "_bucket") (mm.labels.insert "le" le)) := by
  unfold labelledHeads at member
  split at member
  · rename_i isCounter
    exact Or.inl ⟨isCounter, List.mem_singleton.mp member⟩
  · rename_i isHistogram
    obtain ⟨le, _, rfl⟩ := List.mem_map.mp member
    exact Or.inr ⟨isHistogram, le, rfl⟩

theorem mem_bareHeads {mm : Metric Value} {x : String} (member : x ∈ bareHeads mm) :
    mm.type = .histogram ∧ ∃ tail ∈ tails, x = mm.name ++ tail := by
  unfold bareHeads at member
  split at member
  · cases member
  · rename_i isHistogram
    refine ⟨isHistogram, ?_⟩
    rcases List.mem_pair.mp member with rfl | rfl
    · exact ⟨"_sum", by decide, rfl⟩
    · exact ⟨"_count", by decide, rfl⟩

theorem labelled_ne_bare {a b : Metric Value} {x y : String} (labelled : x ∈ labelledHeads fm a)
    (bare : y ∈ bareHeads b) : x ≠ y := by
  obtain ⟨_, tail, isTail, rfl⟩ := mem_bareHeads bare
  rcases mem_labelledHeads fm labelled with ⟨_, rfl⟩ | ⟨_, le, rfl⟩
  · exact braced_ne_tail fm _ isTail
  · exact braced_ne_tail fm _ isTail

/-- The lines of a series differ if the boundaries of its buckets are printed differently. -/
theorem heads_nodup_iff (mm : Metric Value) :
    (heads fm mm).Nodup ↔
      (mm.type = .histogram → ((boundaries fm mm).map fm.quote).Nodup) := by
  have bare : (bareHeads mm).Nodup := by
    unfold bareHeads
    split
    · exact List.nodup_nil
    · refine List.nodup_cons.mpr ⟨fun same => ?_, List.nodup_singleton _⟩
      exact absurd (append_tail_inj (by decide) (by decide) (List.mem_singleton.mp same)).2
        (by decide)
  have across : ∀ x ∈ labelledHeads fm mm, ∀ y ∈ bareHeads mm, x ≠ y := fun x labelled y isBare =>
    labelled_ne_bare fm labelled isBare
  have labelled : (labelledHeads fm mm).Nodup ↔
      (mm.type = .histogram → ((boundaries fm mm).map fm.quote).Nodup) := by
    unfold labelledHeads
    cases mm.type with
    | counter => simp
    | histogram =>
        simp only [List.Nodup, List.pairwise_map, ne_eq, bucketHead_eq_iff, true_implies]
  rw [heads, List.nodup_append, labelled]
  exact ⟨fun all => all.1, fun own => ⟨own, bare, across⟩⟩

/-! ## The lines of two series -/

/-- The lines of two series differ unless both are histograms of one name, or two heads with
labels are printed alike. -/
theorem heads_apart_iff (a b : Metric Value) :
    (∀ x ∈ heads fm a, ∀ y ∈ heads fm b, x ≠ y) ↔
      ¬(a.type = .histogram ∧ b.type = .histogram ∧ a.name = b.name) ∧
        ∀ x ∈ labelledHeads fm a, ∀ y ∈ labelledHeads fm b, x ≠ y := by
  constructor
  · intro apart
    refine ⟨?_, fun x member y member' => apart x (List.mem_append_left _ member) y
      (List.mem_append_left _ member')⟩
    rintro ⟨isHistogram, isHistogram', sameName⟩
    -- the sums have no labels
    have sum : a.name ++ "_sum" ∈ heads fm a := by
      simp [heads, bareHeads, isHistogram]
    have sum' : b.name ++ "_sum" ∈ heads fm b := by
      simp [heads, bareHeads, isHistogram']
    exact apart _ sum _ sum' (by rw [sameName])
  · rintro ⟨named, apart⟩ x member y member'
    rcases List.mem_append.mp member with labelled | bare
    · rcases List.mem_append.mp member' with labelled' | bare'
      · exact apart x labelled y labelled'
      · exact labelled_ne_bare fm labelled bare'
    · rcases List.mem_append.mp member' with labelled' | bare'
      · exact (labelled_ne_bare fm labelled' bare).symm
      · obtain ⟨isHistogram, tail, isTail, rfl⟩ := mem_bareHeads bare
        obtain ⟨isHistogram', tail', isTail', rfl⟩ := mem_bareHeads bare'
        intro same
        exact named ⟨isHistogram, isHistogram', (append_tail_inj isTail isTail' same).1⟩

end Heads

/-! ## The samples of the registry -/

section Registry

variable {Value : Type} (fm : Formats Value)

/-- Histograms of one name are one series. -/
def HistogramsNamed (m : Metrics Value) : Prop :=
  ∀ key key' a b, m.lookup key = some a → m.lookup key' = some b →
    a.type = .histogram → b.type = .histogram → a.name = b.name → key = key'

/-- The boundaries of each histogram are printed differently, and not like that of the last
bucket. -/
def BoundariesDiffer (m : Metrics Value) : Prop :=
  ∀ key mm, m.lookup key = some mm → mm.type = .histogram →
    ((boundaries fm mm).map fm.quote).Nodup

/-- The names and labels of different series are printed differently, apart from histograms
of one name. -/
def PrintedApart (m : Metrics Value) : Prop :=
  ∀ key key' a b, m.lookup key = some a → m.lookup key' = some b → key ≠ key' →
    ¬(a.type = .histogram ∧ b.type = .histogram ∧ a.name = b.name) →
      ∀ x ∈ labelledHeads fm a, ∀ y ∈ labelledHeads fm b, x ≠ y

/-- The samples are those of the entries, in some order. -/
theorem sampleLines_perm {m : Metrics Value}
    (entered : ∀ key mm, m.lookup key = some mm → Entered key mm) (order : List String) :
    ∃ ls, lines fm [] (snapshot m order) = some ls ∧
      ((sampleLines ls).map (Sample.head fm)).Perm
        ((order.filterMap m.lookup).flatMap (heads fm)) := by
  have sorted : (snapshot m order).Perm (order.filterMap m.lookup) := List.perm_insertionSort _ _
  have returns : ∀ mm ∈ snapshot m order,
      ∃ ss, samples fm mm = some ss ∧ ss.map (Sample.head fm) = heads fm mm := by
    intro mm member
    obtain ⟨key, _, found⟩ := List.mem_filterMap.mp (sorted.mem_iff.mp member)
    exact samples_return fm (entered key mm found)
  obtain ⟨ls, returned, ids⟩ := lines_return fm [] returns
  refine ⟨ls, returned, ?_⟩
  rw [ids]
  exact sorted.flatMap_right _

theorem mem_order {m : Metrics Value} {order : List String} (visits : order.Perm m.keys)
    {key : String} {mm : Metric Value} (found : m.lookup key = some mm) : key ∈ order :=
  visits.mem_iff.mpr (AList.lookup_isSome.mp (Option.isSome_of_eq_some found))

/-- Each entry against itself. -/
theorem heads_own_iff {m : Metrics Value} {order : List String} (visits : order.Perm m.keys) :
    (∀ mm ∈ order.filterMap m.lookup, (heads fm mm).Nodup) ↔ BoundariesDiffer fm m := by
  constructor
  · intro all key mm found
    have member : mm ∈ order.filterMap m.lookup :=
      List.mem_filterMap.mpr ⟨key, mem_order visits found, found⟩
    exact (heads_nodup_iff fm mm).mp (all mm member)
  · intro differ mm member
    obtain ⟨key, _, found⟩ := List.mem_filterMap.mp member
    exact (heads_nodup_iff fm mm).mpr (differ key mm found)

/-- Any two entries against each other. -/
theorem heads_pairwise_iff {m : Metrics Value} {order : List String}
    (visits : order.Perm m.keys) :
    ((order.filterMap m.lookup).Pairwise fun a b =>
      ∀ x ∈ heads fm a, ∀ y ∈ heads fm b, x ≠ y) ↔ HistogramsNamed m ∧ PrintedApart fm m := by
  rw [List.pairwise_filterMap]
  simp only [heads_apart_iff]
  constructor
  · intro all
    have symmetric : Std.Symm fun key key' => ∀ a, m.lookup key = some a →
        ∀ b, m.lookup key' = some b →
          ¬(a.type = .histogram ∧ b.type = .histogram ∧ a.name = b.name) ∧
            ∀ x ∈ labelledHeads fm a, ∀ y ∈ labelledHeads fm b, x ≠ y :=
      ⟨fun _ _ apart b found' a found => by
        obtain ⟨named, printed⟩ := apart a found b found'
        exact ⟨fun both => named ⟨both.2.1, both.1, both.2.2.symm⟩,
          fun y member' x member same => printed x member y member' same.symm⟩⟩
    constructor
    · intro key key' a b found found' isHistogram isHistogram' sameName
      by_contra other
      exact (all.forall (mem_order visits found) (mem_order visits found') other a found b
        found').1 ⟨isHistogram, isHistogram', sameName⟩
    · intro key key' a b found found' other _
      exact (all.forall (mem_order visits found) (mem_order visits found') other a found b
        found').2
  · rintro ⟨named, printed⟩
    have nodup : order.Nodup := visits.nodup_iff.mpr m.keys_nodup
    refine nodup.pairwise_of_forall_ne fun key _ key' _ other a found b found' => ?_
    have notBoth : ¬(a.type = .histogram ∧ b.type = .histogram ∧ a.name = b.name) :=
      fun ⟨isHistogram, isHistogram', sameName⟩ =>
        other (named key key' a b found found' isHistogram isHistogram' sameName)
    exact ⟨notBoth, printed key key' a b found found' other notBoth⟩

theorem entries_nodup_iff {m : Metrics Value} {order : List String} (visits : order.Perm m.keys) :
    ((order.filterMap m.lookup).flatMap (heads fm)).Nodup ↔
      HistogramsNamed m ∧ BoundariesDiffer fm m ∧ PrintedApart fm m := by
  rw [List.Nodup, List.pairwise_flatMap]
  change (∀ mm ∈ order.filterMap m.lookup, (heads fm mm).Nodup) ∧ _ ↔ _
  rw [heads_own_iff fm visits, heads_pairwise_iff fm visits]
  exact and_left_comm

/-- For registries with entries as `Built` makes them, whatever calls made them. -/
theorem sampleLines_nodup_iff {m : Metrics Value}
    (entered : ∀ key mm, m.lookup key = some mm → Entered key mm) {order : List String}
    (visits : order.Perm m.keys) :
    ∃ ls, lines fm [] (snapshot m order) = some ls ∧
      (((sampleLines ls).map (Sample.head fm)).Nodup ↔
        HistogramsNamed m ∧ BoundariesDiffer fm m ∧ PrintedApart fm m) := by
  obtain ⟨ls, returned, perm⟩ := sampleLines_perm fm entered order
  exact ⟨ls, returned, by rw [perm.nodup_iff, entries_nodup_iff fm visits]⟩

/-! ## Series that are printed apart -/

/-- The end of a quoted text can be told from what follows, as that of a Go string literal. -/
def SelfDelimiting : Prop :=
  ∀ v v' rest rest' : String, fm.quote v ++ rest = fm.quote v' ++ rest' → v = v' ∧ rest = rest'

/-- No name has a brace that opens, and no label key a sign of equality. -/
def PlainlyNamed (m : Metrics Value) : Prop :=
  ∀ key mm, m.lookup key = some mm →
    '\x7b' ∉ mm.name.toList ∧ ∀ k ∈ mm.labels.keys, '=' ∉ k.toList

variable {fm}

theorem cut_at {sep : Char} {a b c d : String} (plain : sep ∉ a.toList) (plain' : sep ∉ c.toList)
    (same : a ++ String.singleton sep ++ b = c ++ String.singleton sep ++ d) : a = c ∧ b = d := by
  have sameText := congrArg String.toList same
  simp only [String.toList_append, String.toList_singleton, List.append_assoc,
    List.singleton_append] at sameText
  obtain ⟨first, second⟩ := Fields.cut_first sameText plain plain'
  exact ⟨String.toList_inj.mp first, String.toList_inj.mp second⟩

/-- What is printed behind the first of some texts. -/
def behind (texts : List String) : String :=
  if texts = [] then "" else "," ++ String.intercalate "," texts

theorem intercalate_cons (text : String) (texts : List String) :
    String.intercalate "," (text :: texts) = text ++ behind texts := by
  cases texts with
  | nil => simp [behind]
  | cons second others =>
      rw [String.intercalate_cons_cons, behind, if_neg (List.cons_ne_nil _ _), String.append_assoc]

theorem intercalate_of_behind {texts texts' : List String} (same : behind texts = behind texts') :
    String.intercalate "," texts = String.intercalate "," texts' := by
  have comma : ∀ text : String, "," ++ text ≠ "" := by
    intro text isEmpty
    have member : ',' ∈ ("," ++ text).toList := by simp
    rw [isEmpty] at member
    cases member
  unfold behind at same
  split at same
  · rename_i none
    split at same
    · rename_i none'
      rw [none, none']
    · exact absurd same.symm (comma _)
  · split at same
    · exact absurd same (comma _)
    · exact (String.append_right_inj _).mp same

theorem labelText_behind (labels : Labels) (k : String) (texts : List String) :
    String.intercalate "," (labelText fm labels k :: texts) =
      k ++ String.singleton '=' ++ (fm.quote ((labels.lookup k).getD "") ++ behind texts) := by
  rw [intercalate_cons, labelText, String.append_assoc]
  rfl

/-- A text of labels determines their keys and values. -/
theorem labels_of_text (delimits : SelfDelimiting fm) {labels labels' : Labels}
    {keys keys' : List String} (plain : ∀ k ∈ keys, '=' ∉ k.toList)
    (plain' : ∀ k ∈ keys', '=' ∉ k.toList)
    (same : String.intercalate "," (keys.map (labelText fm labels)) =
      String.intercalate "," (keys'.map (labelText fm labels'))) :
    keys = keys' ∧ ∀ k ∈ keys, (labels.lookup k).getD "" = (labels'.lookup k).getD "" := by
  have equality : ∀ k rest, k ++ String.singleton '=' ++ rest ≠ "" := by
    intro k rest isEmpty
    have member : '=' ∈ (k ++ String.singleton '=' ++ rest).toList := by simp
    rw [isEmpty] at member
    cases member
  induction keys generalizing keys' with
  | nil =>
      cases keys' with
      | nil => exact ⟨rfl, fun k member => absurd member List.not_mem_nil⟩
      | cons k' rest' =>
          rw [List.map_cons, labelText_behind] at same
          exact absurd same.symm (equality _ _)
  | cons k rest ih =>
      cases keys' with
      | nil =>
          rw [List.map_cons, labelText_behind] at same
          exact absurd same (equality _ _)
      | cons k' rest' =>
          rw [List.map_cons, List.map_cons, labelText_behind, labelText_behind] at same
          obtain ⟨rfl, sameValue⟩ := cut_at (plain k List.mem_cons_self)
            (plain' k' List.mem_cons_self) same
          obtain ⟨isValue, sameRest⟩ := delimits _ _ _ _ sameValue
          obtain ⟨rfl, values⟩ := ih (fun k later => plain k (List.mem_cons_of_mem _ later))
            (fun k later => plain' k (List.mem_cons_of_mem _ later)) (intercalate_of_behind sameRest)
          refine ⟨rfl, fun other member => ?_⟩
          rcases List.mem_cons.mp member with rfl | later
          · exact isValue
          · exact values other later

/-- What is printed with plain names and keys determines the name and the labels. -/
theorem sameSeries_of_braced (delimits : SelfDelimiting fm) {name name' : String}
    {labels labels' : Labels} (plain : '\x7b' ∉ name.toList) (plain' : '\x7b' ∉ name'.toList)
    (keys : ∀ k ∈ labels.keys, '=' ∉ k.toList) (keys' : ∀ k ∈ labels'.keys, '=' ∉ k.toList)
    (same : braced fm name labels = braced fm name' labels') :
    SameSeries name labels name' labels' := by
  unfold braced at same
  rw [String.append_left_inj] at same
  obtain ⟨sameName, sameText⟩ := cut_at plain plain' same
  obtain ⟨sameKeys, sameValues⟩ := labels_of_text delimits
    (fun k member => keys k (mem_sortedKeys.mp member))
    (fun k member => keys' k (mem_sortedKeys.mp member)) sameText
  exact ⟨sameName, lookup_of_sorted sameKeys sameValues⟩

theorem reserved_append (s : String) {tail : String} (isTail : tail ∈ tails) :
    Reserved (s ++ tail) = true := by
  have ends : hasSuffix (s ++ tail) tail = true := by
    unfold hasSuffix
    rw [String.toList_append, List.isSuffixOf_iff_suffix]
    exact List.suffix_append _ _
  have isOne : tail = "_bucket" ∨ tail = "_sum" ∨ tail = "_count" := by
    simpa [tails] using isTail
  unfold Reserved
  rcases isOne with rfl | rfl | rfl
  · rw [ends, Bool.true_or, Bool.true_or]
  · rw [ends, Bool.or_true, Bool.true_or]
  · rw [ends, Bool.or_true]

theorem plain_bucket {m : Metrics Value} (plain : PlainlyNamed m) {key : String}
    {mm : Metric Value} (found : m.lookup key = some mm) (le : String) :
    '\x7b' ∉ (mm.name ++ "_bucket").toList ∧
      ∀ k ∈ (mm.labels.insert "le" le).keys, '=' ∉ k.toList := by
  obtain ⟨plainName, plainKeys⟩ := plain key mm found
  constructor
  · rw [String.toList_append, List.mem_append, not_or]
    exact ⟨plainName, by decide⟩
  · intro k member
    rw [AList.keys_insert] at member
    rcases List.mem_cons.mp member with rfl | other
    · decide
    · exact plainKeys k (List.mem_of_mem_erase other)

/-- Series with plain names and keys are printed apart. -/
theorem printedApart_of_plain (delimits : SelfDelimiting fm) {m : Metrics Value}
    (entered : ∀ key mm, m.lookup key = some mm → Entered key mm) (plain : PlainlyNamed m) :
    PrintedApart fm m := by
  have bucket : ("_bucket" : String) ∈ tails := by decide
  intro key key' a b found found' other notBoth x labelled y labelled' same
  obtain ⟨plainA, keysA⟩ := plain key a found
  obtain ⟨plainB, keysB⟩ := plain key' b found'
  rcases mem_labelledHeads fm labelled with ⟨_, rfl⟩ | ⟨isHistogram, le, rfl⟩
  · rcases mem_labelledHeads fm labelled' with ⟨_, rfl⟩ | ⟨_, le', rfl⟩
    · refine other ?_
      rw [(entered key a found).key, (entered key' b found').key]
      exact metricKey_of_sameSeries (sameSeries_of_braced delimits plainA plainB keysA keysB same)
    · obtain ⟨plainB, keysB⟩ := plain_bucket plain found' le'
      have sameName := (sameSeries_of_braced delimits plainA plainB keysA keysB same).1
      have notReserved := (entered key a found).plain
      rw [sameName, reserved_append b.name bucket] at notReserved
      cases notReserved
  · obtain ⟨plainA, keysA⟩ := plain_bucket plain found le
    rcases mem_labelledHeads fm labelled' with ⟨_, rfl⟩ | ⟨isHistogram', le', rfl⟩
    · have sameName := (sameSeries_of_braced delimits plainA plainB keysA keysB same).1
      have notReserved := (entered key' b found').plain
      rw [← sameName, reserved_append a.name bucket] at notReserved
      cases notReserved
    · obtain ⟨plainB, keysB⟩ := plain_bucket plain found' le'
      have sameName := (sameSeries_of_braced delimits plainA plainB keysA keysB same).1
      exact notBoth ⟨isHistogram, isHistogram', (append_tail_inj bucket bucket sameName).1⟩

variable [Zero Value] [Add Value] [LE Value] [DecidableLE Value]

variable (fm)

end Registry

/-- Whole numbers, and strings without characters that `%q` escapes. -/
def plainFormats : Formats Int := ⟨fun n => toString n, fun s => "\"" ++ s ++ "\""⟩

def onePath : Metrics Int :=
  set ((observe ∅ "latency" 3 (AList.singleton "path" "a") [5, 10]).getD ∅) "up" 1 ∅

theorem built_onePath : Built onePath := by
  have observed : observe (∅ : Metrics Int) "latency" 3 (AList.singleton "path" "a") [5, 10] =
      some ((observe ∅ "latency" 3 (AList.singleton "path" "a") [5, 10]).getD ∅) := by rfl
  exact .set (.observe .new (by decide) observed) (by decide) 1 ∅

def firstPath : Metrics Int := (observe ∅ "latency" 3 (AList.singleton "path" "a") [5]).getD ∅

def twoPaths : Metrics Int := (observe firstPath "latency" 7 (AList.singleton "path" "b") [5]).getD ∅

-- Two counters whose labels are printed alike.
example :
    textExposition plainFormats
      (set (set ∅ "m" 1 ((AList.singleton "a" "x").insert "b" "y")) "m" 1
        (AList.singleton "a=\"x\",b" "y"))
      ["m|a=x|b=y", "m|a=\"x\",b=y"] = some
        ("# HELP m \n# TYPE m counter\n" ++
          "m\x7ba=\"x\",b=\"y\"\x7d 1\nm\x7ba=\"x\",b=\"y\"\x7d 1\n") := by
  decide +kernel

end MiniCloud.Obs
