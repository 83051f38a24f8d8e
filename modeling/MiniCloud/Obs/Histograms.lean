import MiniCloud.Library.Runs
import MiniCloud.Obs.Series

/-!
# Histograms

Calls of `Set`, `Add` and `Observe` on one registry, in any order.  `Set` and `Observe`
create entries of different shape under the same texts.  `Observe` on an entry that `Set`
has created finds no counts and panics; every other call returns, and the counts of a
histogram are those of the values that were observed under its text.  These are the values
of its series as long as no other series with the same text is observed.
-/

namespace MiniCloud.Obs

open MiniCloud.Library

/-- A call on the registry. -/
inductive RegistryCall (Value : Type) where
  | set (name : String) (v : Value) (labels : Labels)
  | add (name : String) (delta : Value) (labels : Labels)
  | observe (name : String) (v : Value) (labels : Labels) (buckets : List Value)

/-! ## The counts of one observation -/

section Counts

variable {Value : Type} [LinearOrder Value]

/-- How many of the values are within a bucket, as the code counts them. -/
def within (vs : List Value) (b : Value) : UInt64 := UInt64.ofNat (vs.countP fun v => v ≤ b)

/-- The counts for each bucket, and the count of all values. -/
def tally (buckets vs : List Value) : List UInt64 :=
  buckets.map (within vs) ++ [UInt64.ofNat vs.length]

theorem within_snoc (vs : List Value) (v b : Value) :
    within (vs ++ [v]) b = if v ≤ b then within vs b + 1 else within vs b := by
  unfold within
  rw [List.countP_append, List.countP_singleton]
  split
  · rename_i inside
    rw [if_pos (of_decide_eq_true inside), UInt64.ofNat_add]
    rfl
  · rename_i outside
    rw [if_neg (fun inside => outside (decide_eq_true inside)), Nat.add_zero]

theorem tally_snoc (buckets vs : List Value) (v : Value) :
    tally buckets (vs ++ [v]) =
      buckets.map (fun b => if v ≤ b then within vs b + 1 else within vs b) ++
        [UInt64.ofNat vs.length + 1] := by
  unfold tally
  rw [List.map_congr_left fun b _ => within_snoc vs v b, List.length_append, List.length_singleton,
    UInt64.ofNat_add]
  rfl

theorem modify_append (before : List UInt64) (n : UInt64) (after : List UInt64) :
    (before ++ n :: after).modify before.length (fun n => n + 1) = before ++ (n + 1) :: after := by
  induction before with
  | nil => rfl
  | cons first rest ih =>
      rw [List.cons_append, List.length_cons, List.modify_succ_cons, ih, List.cons_append]

theorem bump_append (before : List UInt64) (n : UInt64) (after : List UInt64) :
    bump (before ++ n :: after) before.length = some (before ++ (n + 1) :: after) := by
  unfold bump
  rw [if_pos (by simp), modify_append]

/-- The loop over the buckets adds one to the count of each bucket that the value is in. -/
theorem bump_buckets (v : Value) (buckets : List Value) (count : Value → UInt64)
    (before after : List UInt64) :
    (buckets.zipIdx before.length).foldlM
        (fun counts b => if v ≤ b.1 then bump counts b.2 else some counts)
        (before ++ (buckets.map count ++ after)) =
      some (before ++ (buckets.map (fun b => if v ≤ b then count b + 1 else count b) ++ after)) := by
  induction buckets generalizing before with
  | nil => rfl
  | cons b rest ih =>
      have here : (if v ≤ b then
            bump (before ++ (count b :: (rest.map count ++ after))) before.length
          else some (before ++ (count b :: (rest.map count ++ after)))) =
          some (before ++ ((if v ≤ b then count b + 1 else count b) ::
            (rest.map count ++ after))) := by
        split
        · exact bump_append before (count b) _
        · rfl
      have later := ih (before ++ [if v ≤ b then count b + 1 else count b])
      rw [List.length_append, List.length_singleton, List.append_assoc, List.append_assoc] at later
      rw [List.zipIdx_cons, List.foldlM_cons, List.map_cons, List.cons_append, here]
      exact later

/-- The counts of fewer than 2⁶⁴ values do not decrease over ascending buckets. -/
theorem pairwise_tally {buckets vs : List Value} (ascending : buckets.Pairwise (· ≤ ·))
    (few : vs.length < UInt64.size) : (tally buckets vs).Pairwise (· ≤ ·) := by
  have below (b : Value) : (vs.countP fun v => v ≤ b) < UInt64.size :=
    Nat.lt_of_le_of_lt List.countP_le_length few
  refine List.pairwise_append.mpr ⟨?_, List.pairwise_singleton _ _, ?_⟩
  · refine List.pairwise_map.mpr (ascending.imp ?_)
    intro b c le
    refine (UInt64.ofNat_le_iff_le (below b) (below c)).mpr (List.countP_mono_left ?_)
    intro v _ inside
    exact decide_eq_true (le_trans (of_decide_eq_true inside) le)
  · intro n isCount last isLast
    obtain ⟨b, _, rfl⟩ := List.mem_map.mp isCount
    rw [List.mem_singleton.mp isLast]
    exact (UInt64.ofNat_le_iff_le (below b) few).mpr List.countP_le_length

/-- The counts of a histogram are those of the given values. -/
structure Tallied (cur : Metric Value) (vs : List Value) : Prop where
  ascending : cur.buckets.Pairwise (· ≤ ·)
  counts : cur.bucketCounts = tally cur.buckets vs
  count : cur.count = UInt64.ofNat vs.length

/-- What the registry holds under a text under which the values were observed. -/
inductive Entry (vs : List Value) : Option (Metric Value) → Prop where
  | absent (unobserved : vs = []) : Entry vs none
  | counter {cur : Metric Value} (isCounter : cur.type = .counter) (noBuckets : cur.buckets = [])
      (noCounts : cur.bucketCounts = []) (unobserved : vs = []) : Entry vs (some cur)
  | histogram {cur : Metric Value} (isHistogram : cur.type = .histogram)
      (tallied : Tallied cur vs) : Entry vs (some cur)

/-- An observation on a tallied entry returns, with the counts of one value more. -/
theorem Tallied.observeEntry_eq [Add Value] {cur : Metric Value} {vs : List Value}
    (tallied : Tallied cur vs) (v : Value) :
    observeEntry cur v = some { cur with
      bucketCounts := tally cur.buckets (vs ++ [v]), sum := cur.sum + v, count := cur.count + 1 } := by
  have added := bump_buckets v cur.buckets (within vs) [] [UInt64.ofNat vs.length]
  have final := bump_append
    (cur.buckets.map fun b => if v ≤ b then within vs b + 1 else within vs b)
    (UInt64.ofNat vs.length) []
  rw [List.nil_append, List.nil_append, List.length_nil] at added
  rw [List.length_map, ← tally_snoc] at final
  rw [observeEntry, tallied.counts, tally, added, Option.bind_some, List.length_append,
    List.length_map, List.length_singleton]
  simp only [final, Option.map_some]

theorem Tallied.observed {cur : Metric Value} {vs : List Value} (tallied : Tallied cur vs)
    (v sum : Value) :
    Tallied { cur with
      bucketCounts := tally cur.buckets (vs ++ [v]), sum := sum, count := cur.count + 1 }
      (vs ++ [v]) := by
  refine ⟨tallied.ascending, rfl, ?_⟩
  rw [List.length_append, List.length_singleton, UInt64.ofNat_add, tallied.count]
  rfl

end Counts

/-! ## The entries of the registry -/

section Registry

variable {Value : Type} [Zero Value] [LinearOrder Value]

/-- The entry that an observation starts from. -/
def entryFor (m : Metrics Value) (name : String) (labels : Labels) (buckets : List Value) :
    Metric Value :=
  (m.lookup (metricKey name labels)).getD
    ⟨name, .histogram, labels, 0, buckets, List.replicate (buckets.length + 1) 0, 0, 0⟩

theorem tallied_new (name : String) (labels : Labels) {buckets : List Value}
    (ascending : buckets.Pairwise (· ≤ ·)) :
    Tallied ⟨name, .histogram, labels, 0, buckets, List.replicate (buckets.length + 1) 0, 0, 0⟩
      [] := by
  refine ⟨ascending, ?_, rfl⟩
  have none : within ([] : List Value) = fun _ => 0 := rfl
  rw [tally, none, List.map_const', List.replicate_succ']
  rfl

/-- The names, labels and values of the `Observe` calls, in their order. -/
def observations (calls : List (RegistryCall Value)) : List (String × Labels × Value) :=
  calls.filterMap fun call =>
    match call with
    | .observe name v labels _ => some (name, labels, v)
    | _ => none

/-- The values that the calls observe under a text. -/
def observedUnder (key : String) (calls : List (RegistryCall Value)) : List Value :=
  ((observations calls).filter fun o => metricKey o.1 o.2.1 = key).map fun o => o.2.2

/-- The values that the calls observe on a series. -/
def observedOn (name : String) (labels : Labels) (calls : List (RegistryCall Value)) :
    List Value :=
  ((observations calls).filter fun o => SameSeries o.1 o.2.1 name labels).map fun o => o.2.2

omit [Zero Value] [LinearOrder Value] in
theorem observations_append (before after : List (RegistryCall Value)) :
    observations (before ++ after) = observations before ++ observations after :=
  List.filterMap_append

/-- The bucket list of an `Observe` is ascending. -/
def RegistryCall.Ascending : RegistryCall Value → Prop
  | .observe _ _ _ buckets => buckets.Pairwise (· ≤ ·)
  | _ => True

/-- An `Observe` finds no entry or a histogram. -/
def NoClash (m : Metrics Value) : RegistryCall Value → Prop
  | .observe name _ labels _ =>
      ∀ cur, m.lookup (metricKey name labels) = some cur → cur.type = .histogram
  | _ => True

/-! ## Calls one after another -/

/-- Every entry agrees with the calls made so far. -/
def Agrees (m : Metrics Value) (history : List (RegistryCall Value)) : Prop :=
  ∀ key, Entry (observedUnder key history) (m.lookup key)

omit [Zero Value] in
theorem agrees_empty : Agrees (∅ : Metrics Value) [] := by
  intro key
  rw [AList.lookup_empty]
  exact .absent rfl

/-- `Set` changes no counts. -/
theorem agrees_set {m : Metrics Value} {history : List (RegistryCall Value)}
    (agrees : Agrees m history) (name : String) (v : Value) (labels : Labels)
    {call : RegistryCall Value} (notObserved : observations [call] = []) :
    Agrees (set m name v labels) (history ++ [call]) := by
  intro key
  have unobserved : observedUnder key (history ++ [call]) = observedUnder key history := by
    rw [observedUnder, observations_append, notObserved, List.append_nil, observedUnder]
  rw [unobserved]
  by_cases isKey : key = metricKey name labels
  · subst isKey
    have entry := agrees (metricKey name labels)
    rw [lookup_set_self]
    cases found : m.lookup (metricKey name labels) with
    | none =>
        rw [found] at entry
        cases entry with
        | absent none => exact .counter rfl rfl rfl none
    | some cur =>
        rw [found] at entry
        cases entry with
        | counter isCounter noBuckets noCounts none => exact .counter isCounter noBuckets noCounts none
        | histogram isHistogram tallied =>
            exact .histogram isHistogram ⟨tallied.ascending, tallied.counts, tallied.count⟩
  · rw [lookup_set_ne m name v labels isKey]
    exact agrees key

/-- Without a clash an observation starts from a tallied histogram. -/
theorem entryFor_tallied {m : Metrics Value} {history : List (RegistryCall Value)}
    (agrees : Agrees m history) {name : String} {labels : Labels} {buckets : List Value}
    (ascending : buckets.Pairwise (· ≤ ·))
    (noClash : ∀ cur, m.lookup (metricKey name labels) = some cur → cur.type = .histogram) :
    (entryFor m name labels buckets).type = .histogram ∧
      Tallied (entryFor m name labels buckets)
        (observedUnder (metricKey name labels) history) := by
  have entry := agrees (metricKey name labels)
  unfold entryFor
  cases found : m.lookup (metricKey name labels) with
  | none =>
      rw [found] at entry
      cases entry with
      | absent unobserved =>
          rw [unobserved]
          exact ⟨rfl, tallied_new name labels ascending⟩
  | some cur =>
      rw [found] at entry
      cases entry with
      | counter isCounter =>
          have isHistogram := noClash cur found
          rw [isCounter] at isHistogram
          cases isHistogram
      | histogram isHistogram tallied => exact ⟨isHistogram, tallied⟩

variable [Add Value]

/-- `none` is a panic. -/
def perform (m : Metrics Value) : RegistryCall Value → Option (Metrics Value)
  | .set name v labels => some (Obs.set m name v labels)
  | .add name delta labels => some (Obs.add m name delta labels)
  | .observe name v labels buckets => Obs.observe m name v labels buckets

/-- An observation on a tallied entry, or on a new one, returns. -/
theorem observe_tallied {m : Metrics Value} {name : String} {labels : Labels}
    {buckets vs : List Value} (v : Value) (tallied : Tallied (entryFor m name labels buckets) vs) :
    observe m name v labels buckets = some (m.insert (metricKey name labels)
      { entryFor m name labels buckets with
        bucketCounts := tally (entryFor m name labels buckets).buckets (vs ++ [v])
        sum := (entryFor m name labels buckets).sum + v
        count := (entryFor m name labels buckets).count + 1 }) := by
  rw [observe_eq]
  exact congrArg (Option.map fun cur => m.insert (metricKey name labels) cur)
    (tallied.observeEntry_eq v)

/-- An observation on an entry without counts panics. -/
theorem observe_counter {m : Metrics Value} {name : String} {labels : Labels} {cur : Metric Value}
    (found : m.lookup (metricKey name labels) = some cur) (noBuckets : cur.buckets = [])
    (noCounts : cur.bucketCounts = []) (v : Value) (buckets : List Value) :
    observe m name v labels buckets = none := by
  rw [observe_eq, found, Option.getD_some, observeEntry, noBuckets, noCounts]
  rfl

/-- An observation panics exactly on an entry that `Set` has created. -/
theorem observe_isSome_iff {m : Metrics Value} {history : List (RegistryCall Value)}
    (agrees : Agrees m history) (name : String) (v : Value) (labels : Labels)
    {buckets : List Value} (ascending : buckets.Pairwise (· ≤ ·)) :
    (observe m name v labels buckets).isSome = true ↔
      ∀ cur, m.lookup (metricKey name labels) = some cur → cur.type = .histogram := by
  constructor
  · intro returned cur found
    have entry := agrees (metricKey name labels)
    rw [found] at entry
    cases entry with
    | counter _ noBuckets noCounts _ =>
        rw [observe_counter found noBuckets noCounts] at returned
        cases returned
    | histogram isHistogram _ => exact isHistogram
  · intro noClash
    rw [observe_tallied v (entryFor_tallied agrees ascending noClash).2]
    rfl

/-- `Observe` counts the value in the entry under its text. -/
theorem agrees_observe {m m' : Metrics Value} {history : List (RegistryCall Value)}
    (agrees : Agrees m history) {name : String} {v : Value} {labels : Labels}
    {buckets : List Value} (ascending : buckets.Pairwise (· ≤ ·))
    (observed : observe m name v labels buckets = some m') :
    Agrees m' (history ++ [.observe name v labels buckets]) := by
  intro key
  have recorded : observedUnder key (history ++ [.observe name v labels buckets]) =
      observedUnder key history ++ if metricKey name labels = key then [v] else [] := by
    have one : observations [.observe name v labels buckets] = [(name, labels, v)] := rfl
    rw [observedUnder, observations_append, one, List.filter_append, List.map_append, observedUnder]
    by_cases same : metricKey name labels = key
    · simp [same]
    · simp [same]
  by_cases isKey : key = metricKey name labels
  · subst isKey
    have returned : (observe m name v labels buckets).isSome = true := by
      rw [observed]
      rfl
    obtain ⟨isHistogram, tallied⟩ := entryFor_tallied agrees ascending
      ((observe_isSome_iff agrees name v labels ascending).mp returned)
    rw [observe_tallied v tallied] at observed
    cases observed
    rw [recorded, if_pos rfl, AList.lookup_insert]
    exact .histogram isHistogram (tallied.observed v _)
  · rw [recorded, if_neg (Ne.symm isKey), List.append_nil, lookup_observe_ne observed isKey]
    exact agrees key

theorem agrees_perform {m m' : Metrics Value} {history : List (RegistryCall Value)}
    (agrees : Agrees m history) {call : RegistryCall Value} (ascending : call.Ascending)
    (performed : perform m call = some m') : Agrees m' (history ++ [call]) := by
  cases call with
  | set name v labels =>
      cases performed
      exact agrees_set agrees name v labels rfl
  | add name delta labels =>
      cases performed
      exact agrees_set agrees name _ labels rfl
  | observe name v labels buckets => exact agrees_observe agrees ascending performed

/-- A call panics exactly when it is an `Observe` that clashes. -/
theorem perform_isSome_iff {m : Metrics Value} {history : List (RegistryCall Value)}
    (agrees : Agrees m history) {call : RegistryCall Value} (ascending : call.Ascending) :
    (perform m call).isSome = true ↔ NoClash m call := by
  cases call with
  | set name v labels => exact ⟨fun _ => trivial, fun _ => rfl⟩
  | add name delta labels => exact ⟨fun _ => trivial, fun _ => rfl⟩
  | observe name v labels buckets => exact observe_isSome_iff agrees name v labels ascending

theorem agrees_execute {calls : List (RegistryCall Value)} {m last : Metrics Value}
    {history : List (RegistryCall Value)} (agrees : Agrees m history)
    (ascending : ∀ call ∈ calls, call.Ascending)
    (performed : execute perform m calls = some last) : Agrees last (history ++ calls) := by
  induction calls generalizing m history with
  | nil =>
      cases performed
      rw [List.append_nil]
      exact agrees
  | cons call rest ih =>
      simp only [execute_cons, Option.bind_eq_some_iff] at performed
      obtain ⟨next, stepped, performed⟩ := performed
      have agreesNext := agrees_perform agrees (ascending call List.mem_cons_self) stepped
      have later := ih agreesNext
        (fun other member => ascending other (List.mem_cons_of_mem _ member)) performed
      rwa [List.append_assoc] at later

theorem execute_isSome_iff {calls : List (RegistryCall Value)} {m : Metrics Value}
    {history : List (RegistryCall Value)} (agrees : Agrees m history)
    (ascending : ∀ call ∈ calls, call.Ascending) :
    (execute perform m calls).isSome = true ↔ Guarded perform NoClash m calls := by
  induction calls generalizing m history with
  | nil => exact ⟨fun _ => trivial, fun _ => rfl⟩
  | cons call rest ih =>
      have returns := perform_isSome_iff agrees (ascending call List.mem_cons_self)
      rw [execute_cons, Guarded, ← returns]
      cases stepped : perform m call with
      | none => simp
      | some next =>
          have agreesNext := agrees_perform agrees (ascending call List.mem_cons_self) stepped
          have later := ih agreesNext
            (fun other member => ascending other (List.mem_cons_of_mem _ member))
          simpa using later

/-- The counts of a histogram are those of the values, one by one. -/
structure Counted (cur : Metric Value) (vs : List Value) : Prop where
  length : cur.bucketCounts.length = cur.buckets.length + 1
  each : ∀ (i : Nat) (b : Value), cur.buckets[i]? = some b →
    cur.bucketCounts[i]? = some (UInt64.ofNat (vs.countP fun v => v ≤ b))
  last : cur.bucketCounts.getLast? = some cur.count
  count : cur.count = UInt64.ofNat vs.length
  ascending : vs.length < UInt64.size → cur.bucketCounts.Pairwise (· ≤ ·)

omit [Zero Value] [Add Value] in
theorem Tallied.isCounted {cur : Metric Value} {vs : List Value} (tallied : Tallied cur vs) :
    Counted cur vs := by
  constructor
  · rw [tallied.counts, tally, List.length_append, List.length_map, List.length_singleton]
  · intro i b found
    obtain ⟨inside, _⟩ := List.getElem?_eq_some_iff.mp found
    rw [tallied.counts, tally, List.getElem?_append_left (by rwa [List.length_map]),
      List.getElem?_map, found]
    rfl
  · rw [tallied.counts, tallied.count, tally, List.getLast?_concat]
  · exact tallied.count
  · intro few
    rw [tallied.counts]
    exact pairwise_tally tallied.ascending few

/-- Every series that was observed is a histogram with the counts of its values. -/
def AllCounted (m : Metrics Value) (calls : List (RegistryCall Value)) : Prop :=
  ∀ o ∈ observations calls, ∃ cur, m.lookup (metricKey o.1 o.2.1) = some cur ∧
    cur.type = .histogram ∧ Counted cur (observedOn o.1 o.2.1 calls)

/-- No two series that are observed have the same text. -/
def ObservedApart (calls : List (RegistryCall Value)) : Prop :=
  ∀ o ∈ observations calls, ∀ o' ∈ observations calls,
    metricKey o.1 o.2.1 = metricKey o'.1 o'.2.1 → SameSeries o.1 o.2.1 o'.1 o'.2.1

omit [Zero Value] [LinearOrder Value] [Add Value] in
/-- The values of a series are among those under its text, and are all of them exactly when
nothing else is observed under the text. -/
theorem observedOn_eq_iff (name : String) (labels : Labels) (calls : List (RegistryCall Value)) :
    (observedOn name labels calls).length ≤ (observedUnder (metricKey name labels) calls).length ∧
      ((observedOn name labels calls).length =
          (observedUnder (metricKey name labels) calls).length ↔
        ∀ o ∈ observations calls, metricKey o.1 o.2.1 = metricKey name labels →
          SameSeries o.1 o.2.1 name labels) ∧
      ((∀ o ∈ observations calls, metricKey o.1 o.2.1 = metricKey name labels →
          SameSeries o.1 o.2.1 name labels) →
        observedOn name labels calls = observedUnder (metricKey name labels) calls) := by
  have among : (observations calls).filter (fun o => SameSeries o.1 o.2.1 name labels) =
      ((observations calls).filter fun o => metricKey o.1 o.2.1 = metricKey name labels).filter
        fun o => SameSeries o.1 o.2.1 name labels := by
    rw [List.filter_filter]
    refine List.filter_congr fun o _ => ?_
    by_cases same : SameSeries o.1 o.2.1 name labels
    · simp [same, metricKey_of_sameSeries same]
    · simp [same]
  unfold observedOn observedUnder
  rw [among, List.length_map, List.length_map]
  refine ⟨List.length_filter_le _ _, ?_, ?_⟩
  · rw [List.length_filter_eq_length_iff]
    simp only [List.mem_filter, decide_eq_true_eq, and_imp]
  · intro only
    rw [List.filter_eq_self.mpr]
    intro o member
    obtain ⟨isObserved, sameText⟩ := List.mem_filter.mp member
    exact decide_eq_true (only o isObserved (of_decide_eq_true sameText))

omit [Zero Value] [Add Value] in
/-- An entry under a text that was observed is a histogram with the values of the text. -/
theorem counted_under {m : Metrics Value} {calls : List (RegistryCall Value)}
    (agrees : Agrees m calls) {o : String × Labels × Value} (observed : o ∈ observations calls) :
    ∃ cur, m.lookup (metricKey o.1 o.2.1) = some cur ∧ cur.type = .histogram ∧
      Counted cur (observedUnder (metricKey o.1 o.2.1) calls) := by
  have isValue : o.2.2 ∈ observedUnder (metricKey o.1 o.2.1) calls :=
    List.mem_map_of_mem (List.mem_filter.mpr ⟨observed, decide_eq_true rfl⟩)
  have entry := agrees (metricKey o.1 o.2.1)
  cases found : m.lookup (metricKey o.1 o.2.1) with
  | none =>
      rw [found] at entry
      cases entry with
      | absent unobserved => exact absurd (unobserved ▸ isValue) List.not_mem_nil
  | some cur =>
      rw [found] at entry
      cases entry with
      | counter _ _ _ unobserved => exact absurd (unobserved ▸ isValue) List.not_mem_nil
      | histogram isHistogram tallied => exact ⟨cur, rfl, isHistogram, tallied.isCounted⟩

omit [Zero Value] [Add Value] in
/-- For fewer than 2⁶⁴ calls the histograms have the counts of their series exactly when no
two series that are observed have the same text. -/
theorem allCounted_iff {m : Metrics Value} {calls : List (RegistryCall Value)}
    (agrees : Agrees m calls) (few : calls.length < UInt64.size) :
    AllCounted m calls ↔ ObservedApart calls := by
  constructor
  · intro counted o observed o' observed' sameText
    obtain ⟨cur', found', _, counted'⟩ := counted o' observed'
    obtain ⟨cur, found, _, underText⟩ := counted_under agrees observed'
    rw [found] at found'
    cases found'
    obtain ⟨fewer, same, _⟩ := observedOn_eq_iff o'.1 o'.2.1 calls
    have most : (observedUnder (metricKey o'.1 o'.2.1) calls).length < UInt64.size := by
      refine Nat.lt_of_le_of_lt ?_ few
      rw [observedUnder, List.length_map]
      exact (List.length_filter_le _ _).trans (List.length_filterMap_le _ _)
    have sameCount := counted'.count.symm.trans underText.count
    rw [UInt64.ofNat_eq_iff_mod_eq_toNat, UInt64.toNat_ofNat', Nat.mod_eq_of_lt most,
      Nat.mod_eq_of_lt (fewer.trans_lt most)] at sameCount
    exact same.mp sameCount o observed sameText
  · intro apart o observed
    have only := (observedOn_eq_iff o.1 o.2.1 calls).2.2
      fun o' observed' sameText => apart o' observed' o observed sameText
    rw [only]
    exact counted_under agrees observed

/-- Fewer than 2⁶⁴ calls with ascending buckets on a new registry return, and count every
series that they observe, exactly when no `Observe` meets an entry that `Set` or `Add`
created and no two series that are observed have the same text. -/
theorem histograms_counted_iff (calls : List (RegistryCall Value))
    (ascending : ∀ call ∈ calls, call.Ascending) (few : calls.length < UInt64.size) :
    (∃ m, execute perform ∅ calls = some m ∧ AllCounted m calls) ↔
      Guarded perform NoClash ∅ calls ∧ ObservedApart calls := by
  rw [← execute_isSome_iff agrees_empty ascending, Option.isSome_iff_exists]
  constructor
  · rintro ⟨m, performed, counted⟩
    have agrees := agrees_execute agrees_empty ascending performed
    exact ⟨⟨m, performed⟩, (allCounted_iff agrees few).mp counted⟩
  · rintro ⟨⟨m, performed⟩, apart⟩
    have agrees := agrees_execute agrees_empty ascending performed
    exact ⟨m, performed, (allCounted_iff agrees few).mpr apart⟩

end Registry

/-- Three observations and a gauge. -/
def sampleCalls : List (RegistryCall Int) :=
  [.observe "latency" 3 ∅ [1, 5, 10], .set "users" 2 ∅, .observe "latency" 7 ∅ [1, 5, 10],
    .observe "latency" 30 ∅ [1, 5, 10]]

theorem histograms_counted_on_sample :
    ∃ m cur, execute perform ∅ sampleCalls = some m ∧
      m.lookup (metricKey "latency" ∅) = some cur ∧ Counted cur [3, 7, 30] := by
  have ascending : ∀ call ∈ sampleCalls, call.Ascending := by
    simp [sampleCalls, RegistryCall.Ascending]
  have values : observedOn "latency" ∅ sampleCalls = [3, 7, 30] := by decide
  have counted := histograms_counted_iff sampleCalls ascending (by decide)
  have returns : (execute perform ∅ sampleCalls).isSome = true := by decide +kernel
  have guarded := (execute_isSome_iff agrees_empty ascending).mp returns
  have apart : ObservedApart sampleCalls := by
    simp [ObservedApart, observations, sampleCalls, SameSeries]
  obtain ⟨m, performed, all⟩ := counted.mpr ⟨guarded, apart⟩
  obtain ⟨cur, found, _, isCounted⟩ := all ("latency", ∅, 3) List.mem_cons_self
  exact ⟨m, cur, performed, found, values ▸ isCounted⟩

-- Two series with one text are counted together.
example :
    (execute perform (∅ : Metrics Int)
      [.observe "a|k=v" 3 ∅ [5], .observe "a" 9 (AList.singleton "k" "v") [5]]).map
        (fun m => (m.lookup (metricKey "a|k=v" ∅)).map fun cur =>
          (cur.name, cur.bucketCounts, cur.count)) = some (some ("a|k=v", [1, 2], 2)) := by
  decide +kernel

/-- An observation on a series that `Set` has created panics. -/
theorem observe_after_set_panics :
    execute perform (∅ : Metrics Int) [.set "latency" 1 ∅, .observe "latency" 3 ∅ [1, 5, 10]] =
      none := by
  decide +kernel

end MiniCloud.Obs
