import MiniCloud.Obs.Alerts
import MiniCloud.Obs.Series

/-!
# What is reported over many evaluations

Rules with different IDs are evaluated again and again while the metrics grow.  Each rule
is a detector of its own: the flag and the time stamp of its state are those of the
detector, and what `Evaluate` reports for it is what the detector reports.
-/

namespace MiniCloud.Obs

open MiniCloud.Library MiniCloud.State
open MiniCloud.Library.Debounce (Alternates Detector Report Streak alternates_reportAt firing_iff
  reportAt resolved_iff sample stateAt)

/-! ## One rule of a pass -/

section Names

variable {Value : Type}

/-- Some of the states belong to the rule with the ID. -/
def named (id : String) (states : List (AlertState Value)) : Bool :=
  states.any fun st => st.rule.id = id

theorem named_append (id : String) (first second : List (AlertState Value)) :
    named id (first ++ second) = (named id first || named id second) :=
  List.any_append

theorem named_own {id : String} {states : List (AlertState Value)}
    (own : ∀ st ∈ states, st.rule.id = id) : named id states = !states.isEmpty := by
  cases states with
  | nil => rfl
  | cons st rest =>
      unfold named
      rw [List.any_cons, decide_eq_true (own st List.mem_cons_self)]
      rfl

theorem named_other {id : String} {states : List (AlertState Value)}
    (other : ∀ st ∈ states, st.rule.id ≠ id) : named id states = false := by
  refine List.any_eq_false.mpr ?_
  intro st member same
  exact other st member (of_decide_eq_true same)

end Names

section Passes

variable {Value : Type} (sc : Scanning Value)
  [LT Value] [DecidableLT Value] [LE Value] [DecidableLE Value] [BEq Value] [Zero Value] [Add Value]
  (m : Metrics Value) (now : Time)

/-- The copies that a rule adds to the results are copies of its state. -/
theorem copies_rule (r : AlertRule) (st : AlertState Value) :
    (∀ copy ∈ (evaluateState sc m now r st).2.1, copy.rule = st.rule) ∧
      ∀ copy ∈ (evaluateState sc m now r st).2.2, copy.rule = st.rule := by
  unfold evaluateState advance
  simp only
  split
  · split
    · split
      · simp
      · split
        · simp
        · split
          · simp
          · simp
    · split
      · simp
      · simp
  · simp

/-- Evaluating a rule with another ID. -/
theorem evaluateRule_other {pass : Pass Value} {r : AlertRule} {id : String}
    (own : ∀ id st, pass.state id = some st → st.rule.id = id) (other : r.id ≠ id) :
    (evaluateRule sc m now pass r).state id = pass.state id ∧
      named id (evaluateRule sc m now pass r).firing = named id pass.firing ∧
      named id (evaluateRule sc m now pass r).resolved = named id pass.resolved := by
  cases found : pass.state r.id with
  | none =>
      unfold evaluateRule
      rw [found]
      exact ⟨rfl, rfl, rfl⟩
  | some st =>
      obtain ⟨firing, resolved⟩ := copies_rule sc m now r st
      have others : ∀ {copies : List (AlertState Value)},
          (∀ copy ∈ copies, copy.rule = st.rule) → named id copies = false := by
        intro copies same
        refine named_other ?_
        intro copy member
        rw [same copy member, own r.id st found]
        exact other
      simp only [evaluateRule_of_some sc found, named_append, others firing, others resolved,
        Bool.or_false, and_true]
      exact Function.update_of_ne other.symm _ _

theorem foldl_other {rules : List AlertRule} {pass : Pass Value} {id : String}
    (own : ∀ id st, pass.state id = some st → st.rule.id = id) (other : ∀ r ∈ rules, r.id ≠ id) :
    (rules.foldl (evaluateRule sc m now) pass).state id = pass.state id ∧
      named id (rules.foldl (evaluateRule sc m now) pass).firing = named id pass.firing ∧
      named id (rules.foldl (evaluateRule sc m now) pass).resolved = named id pass.resolved := by
  induction rules generalizing pass with
  | nil => exact ⟨rfl, rfl, rfl⟩
  | cons r rest ih =>
      obtain ⟨state, firing, resolved⟩ := evaluateRule_other sc m now own
        (other r List.mem_cons_self)
      obtain ⟨state', firing', resolved'⟩ := ih (evaluateRule_own sc r own)
        fun r' member => other r' (List.mem_cons_of_mem _ member)
      exact ⟨state'.trans state, firing'.trans firing, resolved'.trans resolved⟩

/-- What a pass does with one of its rules. -/
theorem foldl_rule {rules : List AlertRule} {pass : Pass Value} {r : AlertRule}
    {st : AlertState Value} (own : ∀ id st, pass.state id = some st → st.rule.id = id)
    (distinct : (rules.map AlertRule.id).Nodup) (member : r ∈ rules)
    (found : pass.state r.id = some st) :
    (rules.foldl (evaluateRule sc m now) pass).state r.id =
        some (evaluateState sc m now r st).1 ∧
      named r.id (rules.foldl (evaluateRule sc m now) pass).firing =
        (named r.id pass.firing || !(evaluateState sc m now r st).2.1.isEmpty) ∧
      named r.id (rules.foldl (evaluateRule sc m now) pass).resolved =
        (named r.id pass.resolved || !(evaluateState sc m now r st).2.2.isEmpty) := by
  induction rules generalizing pass with
  | nil => cases member
  | cons head rest ih =>
      obtain ⟨notLater, distinctRest⟩ := List.nodup_cons.mp distinct
      rcases List.mem_cons.mp member with rfl | later
      · have others : ∀ r' ∈ rest, r'.id ≠ r.id := by
          intro r' isLater same
          exact notLater (same ▸ List.mem_map_of_mem isLater)
        obtain ⟨state, firing, resolved⟩ := foldl_other sc m now
          (evaluateRule_own sc r own) others
        obtain ⟨copiesFiring, copiesResolved⟩ := copies_rule sc m now r st
        have isOwn := own r.id st found
        rw [List.foldl_cons, state, firing, resolved]
        simp only [evaluateRule_of_some sc found, Function.update_self, named_append]
        rw [named_own fun copy isCopy => (congrArg AlertRule.id (copiesFiring copy isCopy)).trans isOwn,
          named_own fun copy isCopy => (congrArg AlertRule.id (copiesResolved copy isCopy)).trans isOwn]
        exact ⟨trivial, rfl, rfl⟩
      · have different : head.id ≠ r.id := by
          intro same
          exact notLater (same ▸ List.mem_map_of_mem later)
        obtain ⟨state, firing, resolved⟩ := evaluateRule_other sc m now own
          different
        have rest := ih (evaluateRule_own sc head own) distinctRest later (state.trans found)
        rwa [firing, resolved] at rest

/-- What `Evaluate` does with one of the rules. -/
theorem evaluate_rule {a : Alerts Value} {r : AlertRule} {st : AlertState Value}
    (distinct : (a.rules.map AlertRule.id).Nodup) (member : r ∈ a.rules)
    (found : a.state r.id = some st) :
    (evaluate sc m now a).1.state r.id = some (evaluateState sc m now r st).1 ∧
      named r.id (evaluate sc m now a).2.1 = !(evaluateState sc m now r st).2.1.isEmpty ∧
      named r.id (evaluate sc m now a).2.2 = !(evaluateState sc m now r st).2.2.isEmpty :=
  foldl_rule sc m now a.own distinct member found

end Passes

/-! ## A rule as a detector -/

/-- The duration of the rule lies between the two times. -/
def Enough (r : AlertRule) (since now : Time) : Prop := r.holdFor.toInt ≤ now.ns - since.ns

instance (r : AlertRule) (since now : Time) : Decidable (Enough r since now) :=
  inferInstanceAs (Decidable (_ ≤ _))

section Detection

variable {Value : Type}

/-- The state of a rule is that of a detector; the zero time stands for none. -/
structure Represents (now : Time) (st : AlertState Value) (d : Detector Time) : Prop where
  firing : st.firing = d.firing
  pending : st.pendingSince = d.since.getD ⟨0⟩
  past : ∀ since, d.since = some since → 0 < since.ns ∧ since.ns ≤ now.ns

theorem Represents.later {now next : Time} {st : AlertState Value} {d : Detector Time}
    (represents : Represents now st d) (ordered : now.ns ≤ next.ns) : Represents next st d := by
  refine ⟨represents.firing, represents.pending, ?_⟩
  intro since isSince
  obtain ⟨positive, before⟩ := represents.past since isSince
  exact ⟨positive, Int.le_trans before ordered⟩

variable {now : Time}

/-- Evaluating a rule is one sample of its detector. -/
structure Samples (now : Time) (next : AlertState Value × List (AlertState Value) ×
    List (AlertState Value)) (sampled : Detector Time × Option Report) : Prop where
  state : Represents now next.1 sampled.1
  firing : (!next.2.1.isEmpty) = decide (sampled.2 = some .firing)
  resolved : (!next.2.2.isEmpty) = decide (sampled.2 = some .resolved)

theorem samples_advance {r : AlertRule} {st : AlertState Value} {d : Detector Time}
    {ok matched : Bool} (positive : 0 < now.ns) (represents : Represents now st d)
    (found : ok = true ∨ d = ⟨false, none⟩) :
    Samples now (advance now r ok matched st) (sample (Enough r) d now (ok && matched)) := by
  obtain ⟨firing, since⟩ := d
  have sameFiring : st.firing = firing := represents.firing
  have samePending : st.pendingSince = since.getD ⟨0⟩ := represents.pending
  cases ok with
  | false =>
      -- without a series the rule has not matched before, and its state stays as it was
      rcases found with impossible | idle
      · cases impossible
      · cases idle
        exact ⟨represents, rfl, rfl⟩
  | true =>
      cases matched with
      | false =>
          simp only [advance, sample, sameFiring, if_true, Bool.and_false, Bool.false_eq_true,
            if_false]
          cases firing with
          | true => exact ⟨⟨rfl, rfl, fun since isSince => by cases isSince⟩, rfl, rfl⟩
          | false => exact ⟨⟨rfl, rfl, fun since isSince => by cases isSince⟩, rfl, rfl⟩
      | true =>
          simp only [advance, sample, sameFiring, samePending, if_true, Bool.and_true]
          cases firing with
          | true => exact ⟨represents, rfl, rfl⟩
          | false =>
              cases since with
              | none =>
                  refine ⟨⟨rfl, rfl, ?_⟩, rfl, rfl⟩
                  intro since isSince
                  cases isSince
                  exact ⟨positive, Int.le_refl _⟩
              | some since =>
                  obtain ⟨pendingPositive, before⟩ := represents.past since rfl
                  have nonzero : since.isZero = false :=
                    decide_eq_false (Int.ne_of_gt pendingPositive)
                  have compared : r.holdFor.toInt ≤ now.sub since ↔ Enough r since now :=
                    Time.le_sub_iff before r.holdFor
                  simp only [Option.getD_some, nonzero, Bool.false_eq_true, if_false, compared]
                  by_cases old : Enough r since now
                  · rw [if_pos old, if_pos old]
                    exact ⟨⟨rfl, rfl, represents.past⟩, rfl, rfl⟩
                  · rw [if_neg old, if_neg old]
                    exact ⟨represents, rfl, rfl⟩

end Detection

/-! ## Growing metrics -/

/-- Series are added and updated, and none is removed. -/
def Grows {Value : Type} (m m' : Metrics Value) : Prop :=
  ∀ key cur, m.lookup key = some cur → ∃ cur', m'.lookup key = some cur' ∧ cur'.name = cur.name

theorem grows_set {Value : Type} [Zero Value] (m : Metrics Value) (name : String) (v : Value)
    (labels : Labels) : Grows m (set m name v labels) := by
  intro key cur found
  by_cases isKey : key = metricKey name labels
  · subst isKey
    rw [lookup_set_self, found]
    exact ⟨_, rfl, rfl⟩
  · rw [lookup_set_ne m name v labels isKey]
    exact ⟨cur, found, rfl⟩

section Histories

variable {Value : Type} (sc : Scanning Value) [LT Value] [DecidableLT Value] [LE Value]
  [DecidableLE Value] [BEq Value] [Zero Value] [Add Value]

omit [LT Value] [DecidableLT Value] [LE Value] [DecidableLE Value] [BEq Value] in
/-- Once there is a series for an expression there is one for ever. -/
theorem evalExpr_found {expr : String} {m m' : Metrics Value} (grows : Grows m m')
    (found : (evalExpr sc expr m).2 = true) : (evalExpr sc expr m').2 = true := by
  unfold evalExpr at found ⊢
  cases parts : splitExpr sc expr with
  | none =>
      rw [parts] at found
      cases found
  | some split =>
      obtain ⟨name, op, threshold⟩ := split
      rw [parts] at found
      simp only [Bool.not_eq_true', List.isEmpty_eq_false_iff] at found ⊢
      obtain ⟨series, member⟩ := List.exists_mem_of_ne_nil _ found
      obtain ⟨entry, isName⟩ := List.mem_filter.mp member
      obtain ⟨cur', stored, sameName⟩ := grows series.1 series.2 (AList.mem_lookup_iff.mpr entry)
      refine List.ne_nil_of_mem (List.mem_filter.mpr ⟨AList.mem_lookup_iff.mp stored, ?_⟩)
      rw [sameName]
      exact isName

/-! ## Evaluation after evaluation -/

variable (rules : List AlertRule) (now : Nat → Time) (metrics : Nat → Metrics Value)

/-- The alerts before an evaluation. -/
def alertsAt : Nat → Alerts Value
  | 0 => register rules
  | n + 1 => (evaluate sc (metrics n) (now n) (alertsAt n)).1

/-- The rule is reported firing at an evaluation. -/
def firesAt (r : AlertRule) (n : Nat) : Bool :=
  named r.id (evaluate sc (metrics n) (now n) (alertsAt sc rules now metrics n)).2.1

/-- The rule is reported resolved at an evaluation. -/
def resolvesAt (r : AlertRule) (n : Nat) : Bool :=
  named r.id (evaluate sc (metrics n) (now n) (alertsAt sc rules now metrics n)).2.2

/-- The rule matches at an evaluation: its series are there and their sum meets the
threshold. -/
def matchesAt (r : AlertRule) (n : Nat) : Bool :=
  (evalExpr sc r.expression (metrics n)).2 &&
    matchesThreshold sc r.expression (evalExpr sc r.expression (metrics n)).1

/-- The reports for a rule. -/
def reportsFor (r : AlertRule) (n : Nat) : Option Report :=
  if firesAt sc rules now metrics r n then some .firing
  else if resolvesAt sc rules now metrics r n then some .resolved
  else none

theorem rules_alertsAt (n : Nat) : (alertsAt sc rules now metrics n).rules = rules := by
  induction n with
  | zero => exact rules_foldl_addRule rules newAlerts
  | succ n ih => exact ih

variable {rules now metrics}

/-- As long as there is no series for the rule its detector is idle. -/
theorem idle_of_unknown {r : AlertRule} (grows : ∀ n, Grows (metrics n) (metrics (n + 1))) {n : Nat}
    (unknown : (evalExpr sc r.expression (metrics n)).2 = false) :
    stateAt (Enough r) now (matchesAt sc metrics r) n = ⟨false, none⟩ := by
  cases n with
  | zero => rfl
  | succ n =>
      have before : (evalExpr sc r.expression (metrics n)).2 = false := by
        cases found : (evalExpr sc r.expression (metrics n)).2 with
        | false => rfl
        | true =>
            rw [evalExpr_found sc (grows n) found] at unknown
            cases unknown
      have unmatched : matchesAt sc metrics r n = false := by
        unfold matchesAt
        rw [before]
        rfl
      rw [stateAt, unmatched]
      rfl

/-- One evaluation is one sample of the detector of each rule. -/
theorem samples_at {r : AlertRule} {st : AlertState Value} {n : Nat}
    (distinct : (rules.map AlertRule.id).Nodup) (member : r ∈ rules) (positive : 0 < (now n).ns)
    (grows : ∀ n, Grows (metrics n) (metrics (n + 1)))
    (found : (alertsAt sc rules now metrics n).state r.id = some st)
    (represents : Represents (now n) st (stateAt (Enough r) now (matchesAt sc metrics r) n)) :
    (∃ next, (alertsAt sc rules now metrics (n + 1)).state r.id = some next ∧
        Represents (now n) next (stateAt (Enough r) now (matchesAt sc metrics r) (n + 1))) ∧
      firesAt sc rules now metrics r n =
        decide (reportAt (Enough r) now (matchesAt sc metrics r) n = some .firing) ∧
      resolvesAt sc rules now metrics r n =
        decide (reportAt (Enough r) now (matchesAt sc metrics r) n = some .resolved) := by
  have sameRules := rules_alertsAt sc rules now metrics n
  obtain ⟨state, firing, resolved⟩ := evaluate_rule sc (metrics n) (now n)
    (by rwa [sameRules]) (by rwa [sameRules]) found
  have known : (evalExpr sc r.expression (metrics n)).2 = true ∨
      stateAt (Enough r) now (matchesAt sc metrics r) n = ⟨false, none⟩ := by
    cases ok : (evalExpr sc r.expression (metrics n)).2 with
    | true => exact Or.inl rfl
    | false => exact Or.inr (idle_of_unknown sc grows ok)
  have sampled := @samples_advance _ _ r
    { st with lastValue := (evalExpr sc r.expression (metrics n)).1, lastEvaluated := now n } _ _
    (matchesThreshold sc r.expression (evalExpr sc r.expression (metrics n)).1) positive
    ⟨represents.firing, represents.pending, represents.past⟩ known
  exact ⟨⟨_, state, sampled.state⟩, firing.trans sampled.firing, resolved.trans sampled.resolved⟩

theorem represents_alertsAt {r : AlertRule} (distinct : (rules.map AlertRule.id).Nodup)
    (member : r ∈ rules) (positive : ∀ n, 0 < (now n).ns)
    (ordered : ∀ n, (now n).ns ≤ (now (n + 1)).ns)
    (grows : ∀ n, Grows (metrics n) (metrics (n + 1))) (n : Nat) :
    ∃ st, (alertsAt sc rules now metrics n).state r.id = some st ∧
      Represents (now n) st (stateAt (Enough r) now (matchesAt sc metrics r) n) := by
  induction n with
  | zero =>
      refine ⟨firstState r, state_foldl_addRule newAlerts distinct member, rfl, rfl, ?_⟩
      intro since isSince
      cases isSince
  | succ n ih =>
      obtain ⟨st, found, represents⟩ := ih
      obtain ⟨⟨next, stored, representsNext⟩, _, _⟩ := samples_at sc distinct member (positive n)
        grows found represents
      exact ⟨next, stored, representsNext.later (ordered n)⟩

/-- Rules with different IDs are evaluated at positive times in their order, while series
are added and updated.  A rule is reported firing exactly at an evaluation where it matches,
in a streak of matches that began at an earlier evaluation, at least the duration of the rule
before, and in which it was not reported yet; it is reported resolved exactly at the first
evaluation after a firing at which it does not match.  The two reports alternate. -/
theorem alert_history {r : AlertRule} (distinct : (rules.map AlertRule.id).Nodup)
    (member : r ∈ rules) (positive : ∀ n, 0 < (now n).ns)
    (ordered : ∀ n, (now n).ns ≤ (now (n + 1)).ns)
    (grows : ∀ n, Grows (metrics n) (metrics (n + 1))) :
    (∀ n, firesAt sc rules now metrics r n = true ↔
        matchesAt sc metrics r n = true ∧ ∃ j < n,
          (∀ k, j ≤ k → k < n → matchesAt sc metrics r k = true) ∧
          (j = 0 ∨ matchesAt sc metrics r (j - 1) = false) ∧
          r.holdFor.toInt ≤ (now n).ns - (now j).ns ∧
          ∀ k, j ≤ k → k < n → firesAt sc rules now metrics r k = false) ∧
      (∀ n, resolvesAt sc rules now metrics r n = true ↔
        matchesAt sc metrics r n = false ∧ ∃ k < n, firesAt sc rules now metrics r k = true ∧
          ∀ l, k < l → l < n → matchesAt sc metrics r l = true) ∧
      Alternates (reportsFor sc rules now metrics r) := by
  have reported : ∀ n,
      firesAt sc rules now metrics r n =
          decide (reportAt (Enough r) now (matchesAt sc metrics r) n = some .firing) ∧
        resolvesAt sc rules now metrics r n =
          decide (reportAt (Enough r) now (matchesAt sc metrics r) n = some .resolved) := by
    intro n
    obtain ⟨st, found, represents⟩ := represents_alertsAt sc distinct member positive ordered grows n
    exact (samples_at sc distinct member (positive n) grows found represents).2
  have fires : ∀ n, firesAt sc rules now metrics r n = true ↔
      reportAt (Enough r) now (matchesAt sc metrics r) n = some .firing := by
    intro n
    rw [(reported n).1, decide_eq_true_iff]
  have resolves : ∀ n, resolvesAt sc rules now metrics r n = true ↔
      reportAt (Enough r) now (matchesAt sc metrics r) n = some .resolved := by
    intro n
    rw [(reported n).2, decide_eq_true_iff]
  refine ⟨?_, ?_, ?_⟩
  · intro n
    rw [fires, firing_iff]
    refine and_congr_right fun _ => exists_congr fun j => ?_
    have silent : ∀ k, firesAt sc rules now metrics r k = false ↔
        reportAt (Enough r) now (matchesAt sc metrics r) k ≠ some .firing := by
      intro k
      rw [← Bool.not_eq_true, fires]
    simp only [silent]
    constructor
    · rintro ⟨⟨started, unbroken, fresh⟩, enough, quiet⟩
      exact ⟨started, unbroken, fresh, enough, quiet⟩
    · rintro ⟨started, unbroken, fresh, enough, quiet⟩
      exact ⟨⟨started, unbroken, fresh⟩, enough, quiet⟩
  · intro n
    rw [resolves, resolved_iff]
    simp only [fires]
  · have same : reportsFor sc rules now metrics r =
        reportAt (Enough r) now (matchesAt sc metrics r) := by
      funext n
      unfold reportsFor
      rw [(reported n).1, (reported n).2]
      cases reportAt (Enough r) now (matchesAt sc metrics r) n with
      | none => rfl
      | some kind => cases kind <;> rfl
    rw [same]
    exact alternates_reportAt _ _ _

end Histories

/-- A scanner for expressions without spaces and with one digit. -/
def sampleScanning : Scanning Int where
  trimSpace := id
  sscanf := fun text =>
    match text.toList with
    | [c] => if c.isDigit then some (c.toNat - 48) else none
    | _ => none

/-- More than five for at least one nanosecond. -/
def sampleRule : AlertRule := ⟨"hot", "hot", "page", "cpu>5", 1⟩

/-- The value rises to nine, stays there, and falls. -/
def sampleMetrics : Nat → Metrics Int
  | 0 => ∅
  | n + 1 => set (sampleMetrics n) "cpu" (if n < 3 then 9 else 2) ∅

theorem alert_history_of_sample :
    firesAt sampleScanning [sampleRule] (fun n => ⟨n + 1⟩) sampleMetrics sampleRule 2 = true ∧
      resolvesAt sampleScanning [sampleRule] (fun n => ⟨n + 1⟩) sampleMetrics sampleRule 4 = true ∧
      Alternates (reportsFor sampleScanning [sampleRule] (fun n => ⟨n + 1⟩) sampleMetrics
        sampleRule) := by
  obtain ⟨fires, resolves, alternates⟩ := @alert_history _ sampleScanning _ _ _ _ _ _ _ [sampleRule]
    (fun n => ⟨n + 1⟩) sampleMetrics sampleRule (by decide) List.mem_cons_self
    (by intro n; simp only; omega) (by intro n; simp only; omega)
    (fun n => grows_set (sampleMetrics n) "cpu" _ ∅)
  exact ⟨by decide +kernel, by decide +kernel, alternates⟩

end MiniCloud.Obs
