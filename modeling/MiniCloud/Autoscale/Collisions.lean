import Mathlib.Data.Rat.Floor
import MiniCloud.Autoscale.Isolation
import MiniCloud.Library.Fields

/-!
# Texts of autoscaled workloads

The controller joins the IDs with `/`, the name of the series joins them with `_`, and the
registry puts `|` between a name and its labels; none of them is escaped.  Workloads are
isolated from each other exactly when no separator within their IDs can be taken for one
of these, as for IDs without the separators.
-/

namespace MiniCloud.Autoscale

open MiniCloud.Library
open MiniCloud.State
open MiniCloud.Obs (Metric Metrics RegistryCall avgCPU metricKey)

/-! ## Texts that agree -/

/-- Two samples that a target tells apart. -/
structure Telling (Value : Type) [Zero Value] [Add Value] [Div Value] [NatCast Value]
    [LT Value] where
  low : Value
  high : Value
  target : Value
  quiet : ¬ target < (0 + low) / ((1 : ℕ) : Value)
  busy : target < (0 + high) / ((1 : ℕ) : Value)

/-- A record with one replica. -/
def oneReplica (pair : Pair) : Workload where
  base := ⟨pair.2, pair.1, ""⟩
  replicas := 1
  cpuMillicores := 0
  memoryBytes := 0
  gpus := 0
  nodeSelector := ∅
  tolerations := []
  antiAffinity := []
  status := ⟨false, "", 0, 0⟩

/-- A policy of one to five replicas without a cooldown. -/
def oneToFive {Value : Type} (target : Value) : Policy Value := ⟨1, 5, target, 1, 1, 0⟩

/-- No call fails, and the clock stands still. -/
def calm (order : List String) : Answers := ⟨none, none, order, ⟨0⟩, ⟨0⟩⟩

section Collisions

variable {Value : Type} [Div Value] [NatCast Value] [LT Value] [DecidableLT Value]

theorem change_oneToFive (target avg : Value) :
    change (oneToFive target) avg ⟨0⟩ ⟨0⟩ 1 = if target < avg then some 2 else none := by
  have ready : ¬ (Time.sub ⟨0⟩ ⟨0⟩ < (0 : Int64).toInt) := by decide
  have least : ¬ ((1 : Int64) < (1 : Int32).toInt64) := by decide
  have below : (1 : Int32).toInt64 < 5 := by decide
  have fits : ¬ ((5 : Int64) < (1 : Int32).toInt64 + 1) := by decide
  have more : (1 : Int32).toInt64 + 1 ≠ (1 : Int32).toInt64 := by decide
  unfold change want oneToFive
  by_cases busy : target < avg
  · simp only [ready, busy, below, fits, least, more, and_true, and_false, if_true, if_false]
    decide
  · simp only [ready, busy, least, false_and, and_false, if_true, if_false]

variable [Zero Value] [Add Value]

/-- A pass over one spec and one series writes when the value of the series is above the
target. -/
theorem written_single {b : Pair} (sys : System Value) {target : Value} {labels : Obs.Labels}
    {cur : Metric Value}
    (spec : sys.controller.specs.lookup (specKey b) = some ⟨b.1, b.2, oneToFive target⟩)
    (fresh : sys.controller.lastAton = ∅)
    (stored : sys.store.getWorkload b.1 b.2 = some (oneReplica b))
    (sampled : sys.metrics.lookup (metricKey (workloadMetricKey b) labels) = some cur)
    (isName : cur.name = workloadMetricKey b) (unwritten : sys.written = []) :
    writtenFor b (evaluate [specKey b]
      (fun _ => calm [metricKey (workloadMetricKey b) labels]) sys) =
        if target < (0 + cur.value) / ((1 : ℕ) : Value) then [2] else [] := by
  have avg : avgCPU sys.metrics [metricKey (workloadMetricKey b) labels] (workloadMetricKey b) =
      (0 + cur.value) / ((1 : ℕ) : Value) := by
    simp [avgCPU, sampled, isName]
  have own : pairOf (oneReplica b) = b := rfl
  have last : lastChange sys.controller b = ⟨0⟩ := by
    simp [lastChange, fresh]
  have replicas : (oneReplica b).replicas = 1 := rfl
  simp only [evaluate, List.filterMap_cons, spec, List.filterMap_nil, List.foldl_cons,
    List.foldl_nil, evaluateOne, Spec.pair, readWorkload, calm, stored, own, avg, last, replicas,
    change_oneToFive]
  by_cases busy : target < (0 + cur.value) / ((1 : ℕ) : Value)
  · simp only [busy, if_true]
    simp [writtenFor, System.rescale, unwritten, pairOf, oneReplica]
  · simp only [busy, if_false]
    simp [writtenFor, unwritten]

variable [LE Value] [DecidableLE Value] {known : Set Pair} {a b : Pair}

/-- The actions before, and one pass over the spec and a series of the workload. -/
def thenPass (b : Pair) (labels : Obs.Labels) (before : List (Action Value)) :
    List (Action Value) :=
  before ++ [.evaluate [specKey b] fun _ => calm [metricKey (workloadMetricKey b) labels]]

theorem run_thenPass (b : Pair) (labels : Obs.Labels) (before : List (Action Value)) :
    run (thenPass b labels before) =
      evaluate [specKey b] (fun _ => calm [metricKey (workloadMetricKey b) labels])
        (run before) :=
  run_concat ..

/-- The action puts nothing under other texts than those of the workload. -/
def OnTexts (b : Pair) (labels : Obs.Labels) : Action Value → Prop
  | .record call => callKey call = metricKey (workloadMetricKey b) labels
  | .setPolicy pair _ => specKey pair = specKey b
  | .evaluate _ _ => False
  | _ => True

omit [Div Value] [NatCast Value] [LT Value] [DecidableLT Value] [Zero Value] [Add Value] [LE Value]
  [DecidableLE Value] in
theorem thorough_thenPass {labels : Obs.Labels} {before : List (Action Value)}
    (onTexts : ∀ action ∈ before, OnTexts b labels action) : Thorough (thenPass b labels before) := by
  have pass : ∀ {order answers}, Action.evaluate order answers ∈ thenPass b labels before →
      order = [specKey b] ∧ answers = fun _ => calm [metricKey (workloadMetricKey b) labels] := by
    intro order answers member
    rcases List.mem_append.mp member with earlier | last
    · exact (onTexts _ earlier).elim
    · cases List.mem_singleton.mp last
      exact ⟨rfl, rfl⟩
  constructor
  · intro order answers member
    obtain ⟨rfl, rfl⟩ := pass member
    refine ⟨List.nodup_singleton _, ?_⟩
    intro pair p set
    rcases List.mem_append.mp set with earlier | last
    · exact List.mem_singleton.mpr (onTexts _ earlier)
    · cases List.mem_singleton.mp last
  · intro order answers member pair
    obtain ⟨rfl, rfl⟩ := pass member
    refine ⟨List.nodup_singleton _, ?_⟩
    intro call recorded
    rcases List.mem_append.mp recorded with earlier | last
    · exact List.mem_singleton.mpr (onTexts _ earlier)
    · cases List.mem_singleton.mp last

/-- A record with one replica, a sample and a policy. -/
def sampled (b : Pair) (labels : Obs.Labels) (v target : Value) : List (Action Value) :=
  [.saveWorkload (oneReplica b), .record (.set (workloadMetricKey b) v labels),
    .setPolicy b (oneToFive target)]

/-- An action of an isolated workload makes no difference before the pass. -/
theorem written_eq_of_isolated (isolated : Isolated Value known a b) (isKnown : b ∈ known)
    (labels : Obs.Labels) (v target : Value) (extra : Action Value) (ofKnown : Over known extra)
    (onTexts : OnTexts b labels extra) (secret : concerns a extra = true) :
    writtenFor b (run (thenPass b labels (sampled b labels v target))) =
      writtenFor b (run (thenPass b labels (sampled b labels v target ++ [extra]))) := by
  have here : ∀ action ∈ sampled b labels v target,
      Over known action ∧ OnTexts b labels action := by
    intro action member
    simp only [sampled, List.mem_cons, List.not_mem_nil, or_false] at member
    rcases member with rfl | rfl | rfl
    · exact ⟨trivial, trivial⟩
    · exact ⟨trivial, rfl⟩
    · exact ⟨isKnown, rfl⟩
  have there : ∀ action ∈ sampled b labels v target ++ [extra],
      Over known action ∧ OnTexts b labels action := by
    intro action member
    rcases List.mem_append.mp member with earlier | last
    · exact here action earlier
    · cases List.mem_singleton.mp last
      exact ⟨ofKnown, onTexts⟩
  have allOver {before : List (Action Value)}
      (each : ∀ action ∈ before, Over known action ∧ OnTexts b labels action) :
      ∀ action ∈ thenPass b labels before, Over known action := by
    intro action member
    rcases List.mem_append.mp member with earlier | last
    · exact (each action earlier).1
    · cases List.mem_singleton.mp last
      trivial
  refine (isolated _ _ (allOver here) (allOver there)
    (thorough_thenPass fun action member => (here action member).2)
    (thorough_thenPass fun action member => (there action member).2) ?_).1
  simp only [thenPass, List.filter_append, List.filter_cons, secret, Bool.not_true,
    Bool.false_eq_true, if_false, List.filter_nil, List.append_nil]

section Sampled

variable (b : Pair) (labels : Obs.Labels) (v target : Value)

theorem specs_sampled :
    (run (sampled b labels v target)).controller.specs.lookup (specKey b) =
      some ⟨b.1, b.2, oneToFive target⟩ :=
  AList.lookup_insert _

theorem stored_sampled :
    (run (sampled b labels v target)).store.getWorkload b.1 b.2 = some (oneReplica b) :=
  Store.getWorkload_save_self

theorem series_sampled :
    (run (sampled b labels v target)).metrics.lookup (metricKey (workloadMetricKey b) labels) =
      some ⟨workloadMetricKey b, .counter, labels, v, [], [], 0, 0⟩ :=
  AList.lookup_insert _

theorem written_sampled :
    writtenFor b (run (thenPass b labels (sampled b labels v target))) =
      if target < (0 + v) / ((1 : ℕ) : Value) then [2] else [] := by
  rw [run_thenPass]
  exact written_single _ (specs_sampled b labels v target) rfl (stored_sampled b labels v target)
    (series_sampled b labels v target) rfl rfl

end Sampled

/-- A spec under the same text takes the place of the other one. -/
theorem specKey_ne_of_isolated (telling : Telling Value) (isKnown : a ∈ known)
    (isKnown' : b ∈ known) (different : a ≠ b) (isolated : Isolated Value known a b) :
    specKey a ≠ specKey b := by
  intro same
  let policy := oneToFive telling.target
  have alike := written_eq_of_isolated isolated isKnown' ∅ telling.high telling.target
    (.setPolicy a policy) isKnown same (decide_eq_true rfl)
  rw [written_sampled, if_pos telling.busy, run_thenPass, run_concat] at alike
  generalize isSystem : (run (sampled b ∅ telling.high telling.target)).next (.setPolicy a policy) =
    sys at alike
  -- the pass finds the other spec, whose workload is not stored
  have spec : sys.controller.specs.lookup (specKey b) = some ⟨a.1, a.2, policy⟩ := by
    rw [← isSystem, ← same]
    exact AList.lookup_insert _
  have unsaved (answers : Answers) : readWorkload answers sys.store (a.1, a.2) = none := by
    have missing : sys.store.getWorkload a.1 a.2 = none := by
      rw [← isSystem]
      exact Store.getWorkload_save_ne different
    unfold readWorkload
    split
    · rfl
    · exact missing
  have unwritten : sys.written = [] := by
    rw [← isSystem]
    rfl
  simp only [evaluate, List.filterMap_cons, spec, List.filterMap_nil, List.foldl_cons,
    List.foldl_nil, evaluateOne, Spec.pair, unsaved, writtenFor, unwritten, List.filter_nil,
    List.map_nil] at alike
  cases alike

/-- A sample under the same text overwrites the one that the average reads. -/
theorem metricKey_ne_of_isolated (telling : Telling Value) (isKnown : b ∈ known)
    (isolated : Isolated Value known a b) (labels labels' : Obs.Labels) :
    metricKey (workloadMetricKey a) labels ≠ metricKey (workloadMetricKey b) labels' := by
  intro same
  have alike := written_eq_of_isolated isolated isKnown labels' telling.low telling.target
    (.record (.set (workloadMetricKey a) telling.high labels)) trivial same (decide_eq_true rfl)
  rw [written_sampled, if_neg telling.quiet, run_thenPass, run_concat] at alike
  have stored := series_sampled b labels' telling.low telling.target
  generalize isSystem : (run (sampled b labels' telling.low telling.target)).next
    (.record (.set (workloadMetricKey a) telling.high labels)) = sys at alike
  have spec : sys.controller.specs.lookup (specKey b) =
      some ⟨b.1, b.2, oneToFive telling.target⟩ := by
    rw [← isSystem]
    exact specs_sampled b labels' telling.low telling.target
  have workload : sys.store.getWorkload b.1 b.2 = some (oneReplica b) := by
    rw [← isSystem]
    exact stored_sampled b labels' telling.low telling.target
  have raised : sys.metrics.lookup (metricKey (workloadMetricKey b) labels') =
      some ⟨workloadMetricKey b, .counter, labels', telling.high, [], [], 0, 0⟩ := by
    rw [← same] at stored ⊢
    rw [← isSystem]
    refine (Obs.lookup_set_self ..).trans ?_
    rw [stored]
  have fresh : sys.controller.lastAton = ∅ ∧ sys.written = [] := by
    rw [← isSystem]
    exact ⟨rfl, rfl⟩
  rw [written_single sys spec fresh.1 workload raised rfl fresh.2, if_pos telling.busy] at alike
  cases alike

end Collisions

/-! ## Separators within the IDs -/

/-- The project of the second pair goes on into the workload of the first, so that the
separator between the IDs of each is one within the IDs of the other. -/
def Shifted (sep : Char) (a b : Pair) : Prop :=
  ∃ m, b.1.toList = a.1.toList ++ sep :: m ∧ a.2.toList = m ++ sep :: b.2.toList

/-- The IDs of the second pair, joined with `_`, go on behind a bar where those of the
first end. -/
def Prolonged (a b : Pair) : Prop :=
  ∃ more, b.1.toList ++ '_' :: b.2.toList = a.1.toList ++ '_' :: (a.2.toList ++ '|' :: more)

/-- No separator within the IDs can be taken for one that the code puts between them. -/
structure Unmistakable (a b : Pair) : Prop where
  slash : ¬ Shifted '/' a b ∧ ¬ Shifted '/' b a
  underscore : ¬ Shifted '_' a b ∧ ¬ Shifted '_' b a
  bar : ¬ Prolonged a b ∧ ¬ Prolonged b a

theorem toList_specKey (pair : Pair) :
    (specKey pair).toList = pair.1.toList ++ '/' :: pair.2.toList := by
  have mark : "/".toList = ['/'] := by decide
  unfold specKey
  rw [String.toList_append, String.toList_append, mark, List.append_assoc, List.singleton_append]

theorem toList_workloadMetricKey (pair : Pair) :
    (workloadMetricKey pair).toList =
      "workload_cpu_".toList ++ (pair.1.toList ++ '_' :: pair.2.toList) := by
  have mark : "_".toList = ['_'] := by decide
  unfold workloadMetricKey
  rw [String.toList_append, String.toList_append, String.toList_append, mark, List.append_assoc,
    List.append_assoc, List.singleton_append]

theorem pair_ext {a b : Pair}
    (same : a.1.toList = b.1.toList ∧ a.2.toList = b.2.toList) : a = b :=
  Prod.ext (String.toList_inj.mp same.1) (String.toList_inj.mp same.2)

/-- Different pairs are joined to one text exactly if one of them is the other shifted. -/
theorem joined_iff {sep : Char} {a b : Pair} (different : a ≠ b) :
    a.1.toList ++ sep :: a.2.toList = b.1.toList ++ sep :: b.2.toList ↔
      Shifted sep a b ∨ Shifted sep b a := by
  constructor
  · intro same
    rcases Fields.cut_cases same with both | shifted | shifted
    · exact absurd (pair_ext both) different
    · exact Or.inl shifted
    · exact Or.inr shifted
  · rintro (⟨m, project, workload⟩ | ⟨m, project, workload⟩)
    · rw [project, workload, List.append_assoc, List.cons_append]
    · rw [project, workload, List.append_assoc, List.cons_append]

theorem specKey_eq_iff {a b : Pair} (different : a ≠ b) :
    specKey a = specKey b ↔ Shifted '/' a b ∨ Shifted '/' b a := by
  rw [← String.toList_inj, toList_specKey, toList_specKey]
  exact joined_iff different

theorem workloadMetricKey_eq_iff {a b : Pair} (different : a ≠ b) :
    workloadMetricKey a = workloadMetricKey b ↔ Shifted '_' a b ∨ Shifted '_' b a := by
  rw [← String.toList_inj, toList_workloadMetricKey, toList_workloadMetricKey,
    List.append_cancel_left_eq]
  exact joined_iff different

theorem continues_iff (a b : Pair) :
    Obs.Continues (workloadMetricKey a) (workloadMetricKey b) ↔ Prolonged a b := by
  unfold Obs.Continues Prolonged
  simp only [toList_workloadMetricKey, List.append_assoc, List.append_cancel_left_eq,
    List.cons_append]

/-- The texts of two pairs differ exactly when their separators cannot be mistaken. -/
theorem apart_iff {a b : Pair} (different : a ≠ b) : Apart a b ↔ Unmistakable a b := by
  have series : (∀ labels labels', metricKey (workloadMetricKey a) labels ≠
      metricKey (workloadMetricKey b) labels') ↔
        ¬ ((Shifted '_' a b ∨ Shifted '_' b a) ∨ Prolonged a b ∨ Prolonged b a) := by
    rw [← workloadMetricKey_eq_iff different, ← continues_iff, ← continues_iff,
      ← Obs.exists_metricKey_eq_iff]
    push Not
    rfl
  constructor
  · rintro ⟨specsApart, seriesApart⟩
    obtain ⟨underscore, bar⟩ := not_or.mp (series.mp seriesApart)
    exact ⟨not_or.mp fun shifted => specsApart ((specKey_eq_iff different).mpr shifted),
      not_or.mp underscore, not_or.mp bar⟩
  · rintro ⟨slash, underscore, bar⟩
    exact ⟨fun same => not_or.mpr slash ((specKey_eq_iff different).mp same),
      series.mpr (not_or.mpr ⟨not_or.mpr underscore, not_or.mpr bar⟩)⟩

/-- The project has none of the separators, and the workload not the one of labels. -/
structure PlainIDs (pair : Pair) : Prop where
  slash : '/' ∉ pair.1.toList
  underscore : '_' ∉ pair.1.toList
  project : '|' ∉ pair.1.toList
  workload : '|' ∉ pair.2.toList

theorem not_shifted {sep : Char} {a b : Pair} (plain : sep ∉ b.1.toList) : ¬ Shifted sep a b := by
  rintro ⟨m, project, _⟩
  rw [project] at plain
  exact plain (List.mem_append_right _ List.mem_cons_self)

theorem not_prolonged {a b : Pair} (plain : PlainIDs b) : ¬ Prolonged a b := by
  rintro ⟨more, same⟩
  have bar : '|' ∈ b.1.toList ++ '_' :: b.2.toList := by
    rw [same]
    simp
  rcases List.mem_append.mp bar with inProject | behind
  · exact plain.project inProject
  · rcases List.mem_cons.mp behind with isMark | inWorkload
    · cases isMark
    · exact plain.workload inWorkload

theorem unmistakable_of_plain {a b : Pair} (plain : PlainIDs a) (plain' : PlainIDs b) :
    Unmistakable a b where
  slash := ⟨not_shifted plain'.slash, not_shifted plain.slash⟩
  underscore := ⟨not_shifted plain'.underscore, not_shifted plain.underscore⟩
  bar := ⟨not_prolonged plain', not_prolonged plain⟩

/-! ## The whole -/

section Isolation

variable {Value : Type} [Zero Value] [Add Value] [Div Value] [NatCast Value] [LE Value]
  [DecidableLE Value] [LT Value] [DecidableLT Value]

/-- Workloads are isolated from each other exactly when the separators of their IDs cannot
be mistaken, as those of plain IDs cannot. -/
theorem autoscaling_isolated_iff (telling : Telling Value) (known : Set Pair) :
    ((∀ a ∈ known, ∀ b ∈ known, a ≠ b → Isolated Value known a b) ↔
        ∀ a ∈ known, ∀ b ∈ known, a ≠ b → Unmistakable a b) ∧
      ((∀ pair ∈ known, PlainIDs pair) →
        ∀ a ∈ known, ∀ b ∈ known, a ≠ b → Unmistakable a b) := by
  refine ⟨⟨?_, ?_⟩, ?_⟩
  · intro isolated a isKnown b isKnown' different
    have alone := isolated a isKnown b isKnown' different
    exact (apart_iff different).mp
      ⟨specKey_ne_of_isolated telling isKnown isKnown' different alone,
        metricKey_ne_of_isolated telling isKnown' alone⟩
  · intro clear a isKnown b isKnown' different
    have apart : ∀ {other}, other ∈ known → other ≠ b → Apart other b := by
      intro other isOther notSame
      exact (apart_iff notSame).mpr (clear other isOther b isKnown' notSame)
    refine isolated_of_apart (apart isKnown different) ?_
    intro other isOther same
    by_contra notSame
    exact (apart isOther notSame).specs same
  · intro plain a isKnown b isKnown' _
    exact unmistakable_of_plain (plain a isKnown) (plain b isKnown')

end Isolation

/-- Samples of 5 and 95 with a target of 50. -/
def percent : Telling ℚ := ⟨5, 95, 50, by decide +kernel, by decide +kernel⟩

theorem web_and_db_isolated :
    Isolated ℚ {("p", "web"), ("q", "db")} ("p", "web") ("q", "db") := by
  have plain : ∀ pair ∈ ({("p", "web"), ("q", "db")} : Set Pair), PlainIDs pair := by
    intro pair member
    rcases member with rfl | rfl
    · exact ⟨by decide, by decide, by decide, by decide⟩
    · exact ⟨by decide, by decide, by decide, by decide⟩
  have whole := autoscaling_isolated_iff percent {("p", "web"), ("q", "db")}
  exact whole.1.mpr (whole.2 plain) ("p", "web") (Set.mem_insert _ _) ("q", "db")
    (Set.mem_insert_of_mem _ rfl) (by decide)

/-- The record, a policy and a pass for the workload, with other actions before the pass. -/
def passAfter (b : Pair) (v : ℚ) (actions : List (Action ℚ)) : List (Action ℚ) :=
  thenPass b ∅ (sampled b ∅ v 50 ++ actions)

/-- A sample of the workload `c` in the project `a_b` scales up `b_c` in `a`, and removing
the policy of `c` in `a/b` removes that of `b/c` in `a`. -/
theorem workloads_share_texts :
    writtenFor ("a", "b_c") (run (passAfter ("a", "b_c") 5 [])) = [] ∧
      writtenFor ("a", "b_c") (run (passAfter ("a", "b_c") 5
        [.record (.set (workloadMetricKey ("a_b", "c")) 95 ∅)])) = [2] ∧
      writtenFor ("a", "b/c") (run (passAfter ("a", "b/c") 95 [])) = [2] ∧
      writtenFor ("a", "b/c") (run (passAfter ("a", "b/c") 95 [.removePolicy ("a/b", "c")])) =
        [] := by
  decide +kernel

end MiniCloud.Autoscale
