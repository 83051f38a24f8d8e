import MiniCloud.Autoscale.Collisions
import MiniCloud.Library.Wrapping

/-!
# The bounds of a policy

Scaling up cuts the new count off at `Max` and scaling down at `Min`, each at one side
only.  A count that starts outside of the bounds can be stepped to another one outside of
them: from below `Min` by a small step up, from above `Max` by a small step down.  The
sums are those of 64 bits, and the count that is written keeps the last 32 of them, so a
large step or a large `Max` can leave the bounds as well.
-/

namespace MiniCloud.Autoscale

open MiniCloud.Library
open MiniCloud.State
open MiniCloud.Obs (avgCPU)

/-! ## Machine integers -/

/-- The last 32 bits of the number are a count that is not negative and not below the bound. -/
def Lands (least v : Int) : Prop := v % 4294967296 < 2147483648 ∧ least ≤ v % 4294967296

theorem toInt32_of_lands {least : Int} {x : Int64} (lands : Lands least x.toInt) :
    x.toInt32.toInt = x.toInt % 4294967296 := by
  obtain ⟨small, _⟩ := lands
  rw [Int64.toInt_toInt32, Int.bmod_def]
  split
  · omega
  · omega

theorem le_toInt32_iff {least : Int} (positive : 0 ≤ least) (x : Int64) :
    least ≤ x.toInt32.toInt ↔ Lands least x.toInt := by
  constructor
  · intro above
    rw [Int64.toInt_toInt32, Int.bmod_def] at above
    unfold Lands
    split at above
    · omega
    · omega
  · intro lands
    rw [toInt32_of_lands lands]
    exact lands.2

/-! ## The count that a policy asks for -/

section Policies

variable {Value : Type}

/-- The policies with `0 <= Min <= Max` and steps that are not negative. -/
structure Policy.Proper (p : Policy Value) : Prop where
  least : 0 ≤ p.min.toInt
  ordered : p.min.toInt ≤ p.max.toInt
  upBy : 0 ≤ p.scaleUpBy.toInt
  downBy : 0 ≤ p.scaleDownBy.toInt

/-- The count is in the bounds. -/
def Policy.Within (p : Policy Value) (replicas : Int32) : Prop :=
  p.min.toInt ≤ replicas.toInt ∧ replicas.toInt ≤ p.max.toInt

instance (p : Policy Value) (replicas : Int32) : Decidable (p.Within replicas) :=
  inferInstanceAs (Decidable (_ ∧ _))

/-- For a number whose last 32 bits are not above `Max`, `Min` is left to be checked. -/
theorem within_iff_of_le {p : Policy Value} (proper : p.Proper) {x : Int64}
    (most : x.toInt % 4294967296 < 2147483648 → x.toInt % 4294967296 ≤ p.max.toInt) :
    p.Within x.toInt32 ↔ Lands p.min.toInt x.toInt := by
  rw [Policy.Within, le_toInt32_iff proper.least]
  refine ⟨fun within => within.1, fun lands => ⟨lands, ?_⟩⟩
  rw [toInt32_of_lands lands]
  exact most lands.1

variable [Div Value] [NatCast Value] [LT Value]

def ScalesUp (p : Policy Value) (avg : Value) (replicas : Int32) : Prop :=
  p.targetCPU < avg ∧ replicas.toInt < p.max.toInt

/-- With a negative target a workload can scale up and down at once. -/
def ScalesDown (p : Policy Value) (avg : Value) (replicas : Int32) : Prop :=
  avg < p.targetCPU / ((2 : ℕ) : Value) ∧ p.min.toInt < replicas.toInt

variable {p : Policy Value} {avg : Value} {replicas : Int32}

omit [Div Value] [NatCast Value] in
theorem scalesUp_iff :
    (p.targetCPU < avg ∧ replicas.toInt64 < p.max) ↔ ScalesUp p avg replicas := by
  rw [ScalesUp, Int64.lt_iff_toInt_lt, Int32.toInt_toInt64]

theorem scalesDown_iff :
    (avg < p.targetCPU / ((2 : ℕ) : Value) ∧ p.min < replicas.toInt64) ↔
      ScalesDown p avg replicas := by
  rw [ScalesDown, Int64.lt_iff_toInt_lt, Int32.toInt_toInt64]

variable [DecidableLT Value]

theorem want_of_neither (up : ¬ScalesUp p avg replicas) (down : ¬ScalesDown p avg replicas) :
    want p avg replicas = replicas.toInt64 := by
  unfold want
  simp only [mt scalesUp_iff.mp up, mt scalesDown_iff.mp down, if_false]

theorem toInt_want_of_up (up : ScalesUp p avg replicas) (down : ¬ScalesDown p avg replicas) :
    (want p avg replicas).toInt =
      min p.max.toInt ((replicas.toInt + p.scaleUpBy.toInt).bmod (2 ^ 64)) := by
  unfold want
  simp only [scalesUp_iff.mpr up, mt scalesDown_iff.mp down, and_self, if_true, if_false,
    toInt_cut_above, Int64.toInt_add, Int32.toInt_toInt64]

theorem toInt_want_of_down (up : ¬ScalesUp p avg replicas) (down : ScalesDown p avg replicas) :
    (want p avg replicas).toInt =
      max p.min.toInt ((replicas.toInt - p.scaleDownBy.toInt).bmod (2 ^ 64)) := by
  unfold want
  simp only [mt scalesUp_iff.mp up, scalesDown_iff.mpr down, and_self, if_true, if_false,
    toInt_cut_below, Int64.toInt_sub, Int32.toInt_toInt64]

theorem toInt_want_of_both (up : ScalesUp p avg replicas) (down : ScalesDown p avg replicas) :
    (want p avg replicas).toInt =
      max p.min.toInt ((min p.max.toInt ((replicas.toInt + p.scaleUpBy.toInt).bmod (2 ^ 64)) -
        p.scaleDownBy.toInt).bmod (2 ^ 64)) := by
  unfold want
  simp only [scalesUp_iff.mpr up, scalesDown_iff.mpr down, and_self, if_true, toInt_cut_above,
    toInt_cut_below, Int64.toInt_add, Int64.toInt_sub, Int32.toInt_toInt64]

/-! ## Which counts stay in the bounds -/

/-- A step up lands at `Min` or above.  A sum of 64 bits that overflows is negative, and its
last 32 bits are what it has beyond the limit. -/
def UpWithin (p : Policy Value) (c : Int) : Prop :=
  0 < p.scaleUpBy.toInt →
    if c + p.scaleUpBy.toInt < 9223372036854775808 then
      Lands p.min.toInt (min p.max.toInt (c + p.scaleUpBy.toInt))
    else p.min.toInt ≤ c + p.scaleUpBy.toInt - 9223372036854775808

/-- A step down lands at `Max` or below. -/
def DownWithin (p : Policy Value) (c : Int) : Prop :=
  0 < p.scaleDownBy.toInt → c - p.scaleDownBy.toInt ≤ p.max.toInt

/-- Both steps: after a sum that overflows, the difference can overflow as well, and the
result is then not cut off at `Max`. -/
def BothWithin (p : Policy Value) (c : Int) : Prop :=
  if c + p.scaleUpBy.toInt < 9223372036854775808 then
    Lands p.min.toInt (max p.min.toInt (min p.max.toInt (c + p.scaleUpBy.toInt) -
      p.scaleDownBy.toInt))
  else
    c + p.scaleUpBy.toInt - p.scaleDownBy.toInt < 9223372036854775808 →
      Lands p.min.toInt (max p.min.toInt (c + p.scaleUpBy.toInt - p.scaleDownBy.toInt)) ∧
        max p.min.toInt (c + p.scaleUpBy.toInt - p.scaleDownBy.toInt) % 4294967296 ≤ p.max.toInt

/-- The conditions on the count, by the steps that the average asks for. -/
structure StaysWithin (p : Policy Value) (avg : Value) (replicas : Int32) : Prop where
  up : ScalesUp p avg replicas → ¬ScalesDown p avg replicas → UpWithin p replicas.toInt
  down : ¬ScalesUp p avg replicas → ScalesDown p avg replicas → DownWithin p replicas.toInt
  both : ScalesUp p avg replicas → ScalesDown p avg replicas → BothWithin p replicas.toInt

/-- What the policy asks for is in the bounds, unless it is what there is. -/
def WantWithin (p : Policy Value) (avg : Value) (replicas : Int32) : Prop :=
  want p avg replicas ≠ replicas.toInt64 → p.Within (want p avg replicas).toInt32

theorem want_ne_iff :
    want p avg replicas ≠ replicas.toInt64 ↔ (want p avg replicas).toInt ≠ replicas.toInt := by
  rw [Ne, ← Int64.toInt_inj, Int32.toInt_toInt64]

theorem wantWithin_of_up (proper : p.Proper) (up : ScalesUp p avg replicas)
    (down : ¬ScalesDown p avg replicas) :
    WantWithin p avg replicas ↔ UpWithin p replicas.toInt := by
  have isWant := toInt_want_of_up up down
  have lowest := replicas.le_toInt
  have below := replicas.toInt_lt
  have most := p.scaleUpBy.toInt_lt
  have stepped := proper.upBy
  have room := up.2
  rw [WantWithin, want_ne_iff]
  unfold UpWithin
  by_cases fits : replicas.toInt + p.scaleUpBy.toInt < 9223372036854775808
  · rw [bmod64_of_fits (by omega) fits] at isWant
    rw [if_pos fits, ← isWant, within_iff_of_le proper (by omega)]
    have moved : (want p avg replicas).toInt ≠ replicas.toInt ↔ 0 < p.scaleUpBy.toInt := by omega
    rw [moved]
  · rw [bmod64_of_above (by omega) (by omega)] at isWant
    rw [if_neg fits, within_iff_of_le proper (by omega)]
    have lands : Lands p.min.toInt (want p avg replicas).toInt ↔
        p.min.toInt ≤ replicas.toInt + p.scaleUpBy.toInt - 9223372036854775808 := by
      unfold Lands
      omega
    have moved : (want p avg replicas).toInt ≠ replicas.toInt ↔ 0 < p.scaleUpBy.toInt := by omega
    rw [moved, lands]

theorem wantWithin_of_down (proper : p.Proper) (up : ¬ScalesUp p avg replicas)
    (down : ScalesDown p avg replicas) :
    WantWithin p avg replicas ↔ DownWithin p replicas.toInt := by
  have isWant := toInt_want_of_down up down
  have below := replicas.toInt_lt
  have most := p.scaleDownBy.toInt_lt
  have stepped := proper.downBy
  have least := proper.least
  have ordered := proper.ordered
  have room := down.2
  rw [bmod64_of_fits (by omega) (by omega)] at isWant
  -- the result is between `Min` and the count, and keeps its value
  have lands : Lands p.min.toInt (want p avg replicas).toInt := by
    unfold Lands
    omega
  have moved : (want p avg replicas).toInt ≠ replicas.toInt ↔ 0 < p.scaleDownBy.toInt := by omega
  rw [WantWithin, want_ne_iff, moved, Policy.Within, le_toInt32_iff least, toInt32_of_lands lands]
  unfold DownWithin
  constructor
  · intro within steps
    have := (within steps).2
    omega
  · intro within steps
    have := within steps
    exact ⟨lands, by omega⟩

theorem wantWithin_of_both (proper : p.Proper) (up : ScalesUp p avg replicas)
    (down : ScalesDown p avg replicas) :
    WantWithin p avg replicas ↔ BothWithin p replicas.toInt := by
  have isWant := toInt_want_of_both up down
  have below := replicas.toInt_lt
  have mostUp := p.scaleUpBy.toInt_lt
  have mostDown := p.scaleDownBy.toInt_lt
  have steppedUp := proper.upBy
  have steppedDown := proper.downBy
  have least := proper.least
  have ordered := proper.ordered
  have belowMax := up.2
  have aboveMin := down.2
  -- a count that is kept is in the bounds
  have kept : (want p avg replicas).toInt = replicas.toInt →
      Lands p.min.toInt (want p avg replicas).toInt ∧
        (want p avg replicas).toInt % 4294967296 ≤ p.max.toInt := by
    intro same
    unfold Lands
    omega
  have within : WantWithin p avg replicas ↔ Lands p.min.toInt (want p avg replicas).toInt ∧
      (want p avg replicas).toInt % 4294967296 ≤ p.max.toInt := by
    rw [WantWithin, want_ne_iff, Policy.Within, le_toInt32_iff least]
    constructor
    · intro moves
      by_cases same : (want p avg replicas).toInt = replicas.toInt
      · exact kept same
      · obtain ⟨lands, most⟩ := moves same
        rw [toInt32_of_lands lands] at most
        exact ⟨lands, most⟩
    · rintro ⟨lands, most⟩ _
      rw [toInt32_of_lands lands]
      exact ⟨lands, most⟩
  rw [within]
  unfold BothWithin
  by_cases fits : replicas.toInt + p.scaleUpBy.toInt < 9223372036854775808
  · rw [bmod64_of_fits (x := replicas.toInt + p.scaleUpBy.toInt) (by omega) fits,
      bmod64_of_fits (by omega) (by omega)] at isWant
    rw [if_pos fits, ← isWant]
    exact ⟨fun both => both.1, fun lands => ⟨lands, by omega⟩⟩
  · rw [bmod64_of_above (x := replicas.toInt + p.scaleUpBy.toInt) (by omega) (by omega)] at isWant
    rw [if_neg fits]
    by_cases again : replicas.toInt + p.scaleUpBy.toInt - p.scaleDownBy.toInt < 9223372036854775808
    · rw [bmod64_of_below (by omega) (by omega)] at isWant
      have isSum : (want p avg replicas).toInt =
          max p.min.toInt (replicas.toInt + p.scaleUpBy.toInt - p.scaleDownBy.toInt) := by omega
      rw [← isSum]
      exact ⟨fun both _ => both, fun both => both again⟩
    · rw [bmod64_of_fits (by omega) (by omega)] at isWant
      -- the result is negative, and `Min` is written
      have isMin : (want p avg replicas).toInt = p.min.toInt := by omega
      refine ⟨fun _ small => absurd small again, fun _ => ?_⟩
      rw [isMin]
      unfold Lands
      omega

theorem wantWithin_iff (proper : p.Proper) :
    WantWithin p avg replicas ↔ StaysWithin p avg replicas := by
  by_cases up : ScalesUp p avg replicas
  · by_cases down : ScalesDown p avg replicas
    · rw [wantWithin_of_both proper up down]
      exact ⟨fun both => ⟨fun _ single => absurd down single, fun single => absurd up single,
        fun _ _ => both⟩, fun stays => stays.both up down⟩
    · rw [wantWithin_of_up proper up down]
      exact ⟨fun single => ⟨fun _ _ => single, fun other => absurd up other,
        fun _ other => absurd other down⟩, fun stays => stays.up up down⟩
  · by_cases down : ScalesDown p avg replicas
    · rw [wantWithin_of_down proper up down]
      exact ⟨fun single => ⟨fun other => absurd other up, fun _ _ => single,
        fun other => absurd other up⟩, fun stays => stays.down up down⟩
    · refine ⟨fun _ => ⟨fun other => absurd other up, fun _ other => absurd other down,
        fun other => absurd other up⟩, fun _ moves => ?_⟩
      exact absurd (want_of_neither up down) moves

theorem change_eq_some_iff {checked last : Time} {n : Int32} :
    change p avg checked last replicas = some n ↔
      p.cooldown.toInt ≤ checked.sub last ∧ want p avg replicas ≠ replicas.toInt64 ∧
        n = (want p avg replicas).toInt32 := by
  unfold change
  by_cases early : checked.sub last < p.cooldown.toInt
  · rw [if_pos early]
    exact ⟨fun changes => (by cases changes), fun all => absurd all.1 (not_le.mpr early)⟩
  rw [if_neg early]
  by_cases same : want p avg replicas = replicas.toInt64
  · rw [if_pos same]
    exact ⟨fun changes => (by cases changes), fun all => absurd same all.2.1⟩
  · rw [if_neg same, Option.some_inj]
    exact ⟨fun isWant => ⟨not_lt.mp early, same, isWant.symm⟩, fun all => all.2.2.symm⟩

end Policies

/-! ## The counts that are written -/

section Writes

variable {Value : Type} [Zero Value] [Add Value] [Div Value] [NatCast Value] [LT Value]
  [DecidableLT Value]

/-- Whatever is written is the change for the record that was read. -/
theorem written_evaluateOne_iff {answers : Answers} {sys : System Value} {s : Spec Value}
    {entry : Pair × Int32} :
    (evaluateOne answers sys s).written = sys.written ++ [entry] ↔
      ∃ w, readWorkload answers sys.store s.pair = some w ∧ answers.updateWorkload = none ∧
        changeFor answers sys s w = some entry.2 ∧ entry.1 = pairOf w := by
  rcases evaluateOne_cases answers sys s with
    ⟨same, unchanged⟩ | ⟨w, replicas, read, updated, changes, result⟩
  · rw [same]
    constructor
    · intro grown
      exact absurd grown (by simp)
    · rintro ⟨w, read, updated, changes, _⟩
      exact absurd changes (unchanged w entry.2 read updated)
  · rw [result, System.rescale, List.append_cancel_left_eq]
    constructor
    · intro isEntry
      cases isEntry
      exact ⟨w, read, updated, changes, rfl⟩
    · rintro ⟨w', read', _, changes', isPair⟩
      cases read.symm.trans read'
      cases changes.symm.trans changes'
      exact congrArg (fun pair => [(pair, entry.2)]) isPair.symm

/-- A count that is written is in the bounds of its policy exactly if the record, the average
and the policy meet the conditions, whenever the write is due and succeeds. -/
theorem written_within_iff (answers : Answers) (sys : System Value) (s : Spec Value)
    (proper : s.policy.Proper) :
    (∀ entry, (evaluateOne answers sys s).written = sys.written ++ [entry] →
        s.policy.Within entry.2) ↔
      ∀ w, readWorkload answers sys.store s.pair = some w → answers.updateWorkload = none →
        s.policy.cooldown.toInt ≤ answers.checked.sub (lastChange sys.controller (pairOf w)) →
        StaysWithin s.policy (avgCPU sys.metrics answers.order (workloadMetricKey (pairOf w)))
          w.replicas := by
  constructor
  · intro within w read updated ready
    refine (wantWithin_iff proper).mp fun moves => ?_
    refine within (pairOf w, _) (written_evaluateOne_iff.mpr ⟨w, read, updated, ?_, rfl⟩)
    exact change_eq_some_iff.mpr ⟨ready, moves, rfl⟩
  · intro stays entry written
    obtain ⟨w, read, updated, changes, _⟩ := written_evaluateOne_iff.mp written
    obtain ⟨ready, moves, isWant⟩ := change_eq_some_iff.mp changes
    rw [isWant]
    exact (wantWithin_iff proper).mpr (stays w read updated ready) moves

end Writes

/-- A workload with a count and a sample of its CPU. -/
def sampledSystem (replicas : Int32) (cpu : Int) : System Int where
  controller := ⟨∅, ∅⟩
  metrics := Obs.set ∅ (workloadMetricKey ("p", "web")) cpu ∅
  store := emptyStore.saveWorkload { oneReplica ("p", "web") with replicas := replicas }
  written := []

/-- What the evaluation with a policy writes. -/
def writes (replicas : Int32) (cpu : Int) (p : Policy Int) : List (Pair × Int32) :=
  (evaluateOne (calm [workloadMetricKey ("p", "web")]) (sampledSystem replicas cpu)
    ⟨"p", "web", p⟩).written

theorem written_within_step_up :
    writes 1 90 (oneToFive 50) = [(("p", "web"), 2)] ∧ (oneToFive (50 : Int)).Within 2 := by
  have written : writes 1 90 (oneToFive 50) = [(("p", "web"), 2)] := by decide +kernel
  refine ⟨written, ?_⟩
  refine (written_within_iff (calm [workloadMetricKey ("p", "web")]) (sampledSystem 1 90)
    ⟨"p", "web", oneToFive 50⟩ ⟨by decide, by decide, by decide, by decide⟩).mpr ?_
    (("p", "web"), 2) written
  intro w read _ _
  have isOne : readWorkload (calm [workloadMetricKey ("p", "web")]) (sampledSystem 1 90).store
      ("p", "web") = some (oneReplica ("p", "web")) := by rfl
  cases isOne.symm.trans read
  have average : avgCPU (sampledSystem 1 90).metrics [workloadMetricKey ("p", "web")]
      (workloadMetricKey ("p", "web")) = 90 := by decide +kernel
  have busy : ScalesUp (oneToFive (50 : Int)) 90 1 := ⟨by decide, by decide⟩
  have notQuiet : ¬ScalesDown (oneToFive (50 : Int)) 90 1 := fun quiet => absurd quiet.2 (by decide)
  have lands : UpWithin (oneToFive (50 : Int)) (1 : Int32).toInt := by
    unfold UpWithin Lands
    decide
  change StaysWithin (oneToFive (50 : Int)) (avgCPU (sampledSystem 1 90).metrics
    [workloadMetricKey ("p", "web")] (workloadMetricKey ("p", "web"))) 1
  rw [average]
  exact ⟨fun _ _ => lands, fun notBusy => absurd busy notBusy, fun _ quiet => absurd quiet notQuiet⟩

/-- Above `Max` a step down stays above, below `Min` a step up stays below, and a count of more
than 31 bits is written as a negative one. -/
theorem written_out_of_bounds :
    (writes 10 5 ⟨1, 5, 50, 1, 1, 0⟩ = [(("p", "web"), 9)] ∧
        ¬Policy.Within ⟨1, 5, (50 : Int), 1, 1, 0⟩ 9) ∧
      (writes 1 90 ⟨5, 10, 50, 1, 1, 0⟩ = [(("p", "web"), 2)] ∧
        ¬Policy.Within ⟨5, 10, (50 : Int), 1, 1, 0⟩ 2) ∧
      writes 1 90 ⟨1, 4294967296, 50, 2147483647, 1, 0⟩ = [(("p", "web"), -2147483648)] ∧
      ¬Policy.Within ⟨1, 4294967296, (50 : Int), 2147483647, 1, 0⟩ (-2147483648) := by
  decide +kernel

end MiniCloud.Autoscale
