import Mathlib.Tactic.Common

/-!
# Conditions that have to hold for a while

A detector samples a condition again and again.  It fires at a sample when the condition
has held at every sample since one that lies long enough back, and it resolves at the next
sample where the condition fails.  The detector remembers the instant of the first of the
samples and whether it has fired; the lemmas say what it reports in terms of the samples
alone.
-/

namespace MiniCloud.Library.Debounce

inductive Report where
  | firing
  | resolved
  deriving DecidableEq, Repr

structure Detector (Instant : Type*) where
  firing : Bool
  since : Option Instant

section Samples

variable {Instant : Type*} (enough : Instant → Instant → Prop)
  [∀ since now, Decidable (enough since now)]

/-- One sample: the next state, and what is reported. -/
def sample (d : Detector Instant) (now : Instant) (holds : Bool) :
    Detector Instant × Option Report :=
  if holds then
    if d.firing then (d, none)
    else
      match d.since with
      | none => (⟨false, some now⟩, none)
      | some since =>
          if enough since now then (⟨true, some since⟩, some .firing) else (⟨false, some since⟩, none)
  else (⟨false, none⟩, if d.firing then some .resolved else none)

variable (now : Nat → Instant) (holds : Nat → Bool)

/-- The detector before a sample. -/
def stateAt : Nat → Detector Instant
  | 0 => ⟨false, none⟩
  | n + 1 => (sample enough (stateAt n) (now n) (holds n)).1

def reportAt (n : Nat) : Option Report :=
  (sample enough (stateAt enough now holds n) (now n) (holds n)).2

/-- The condition holds from one sample up to another, and did not hold before the first. -/
structure Streak (first n : Nat) : Prop where
  started : first < n
  unbroken : ∀ k, first ≤ k → k < n → holds k = true
  fresh : first = 0 ∨ holds (first - 1) = false

/-- What the state of the detector says about the samples before. -/
inductive Describes (n : Nat) : Detector Instant → Prop where
  | idle (broken : n = 0 ∨ holds (n - 1) = false) : Describes n ⟨false, none⟩
  | pending {first : Nat} (streak : Streak holds first n)
      (quiet : ∀ k, first ≤ k → k < n → reportAt enough now holds k ≠ some .firing) :
      Describes n ⟨false, some (now first)⟩
  | firing {first k : Nat} (streak : Streak holds first n) (later : first ≤ k) (earlier : k < n)
      (reported : reportAt enough now holds k = some .firing) :
      Describes n ⟨true, some (now first)⟩

variable {enough now holds}

theorem Streak.unique {first first' n : Nat} (streak : Streak holds first n)
    (streak' : Streak holds first' n) : first = first' := by
  by_contra different
  rcases Nat.lt_or_gt_of_ne different with less | greater
  · rcases streak'.fresh with zero | broken
    · omega
    · have held := streak.unbroken (first' - 1) (by omega) (by have := streak'.started; omega)
      rw [held] at broken
      cases broken
  · rcases streak.fresh with zero | broken
    · omega
    · have held := streak'.unbroken (first - 1) (by omega) (by have := streak.started; omega)
      rw [held] at broken
      cases broken

theorem Streak.succ {first n : Nat} (streak : Streak holds first n) (held : holds n = true) :
    Streak holds first (n + 1) := by
  refine ⟨Nat.lt_succ_of_lt streak.started, ?_, streak.fresh⟩
  intro k later earlier
  rcases Nat.lt_succ_iff_lt_or_eq.mp earlier with before | rfl
  · exact streak.unbroken k later before
  · exact held

/-- A streak begins at a sample where the condition holds and did not before. -/
theorem Streak.begin {n : Nat} (held : holds n = true) (fresh : n = 0 ∨ holds (n - 1) = false) :
    Streak holds n (n + 1) := by
  refine ⟨Nat.lt_succ_self n, ?_, fresh⟩
  intro k later earlier
  rw [Nat.le_antisymm (Nat.lt_succ_iff.mp earlier) later]
  exact held

variable (enough now holds)

theorem describes_stateAt (n : Nat) :
    Describes enough now holds n (stateAt enough now holds n) := by
  induction n with
  | zero => exact .idle (Or.inl rfl)
  | succ n ih =>
      have reported : reportAt enough now holds n =
          (sample enough (stateAt enough now holds n) (now n) (holds n)).2 := rfl
      unfold stateAt
      generalize stateAt enough now holds n = d at ih reported
      cases held : holds n with
      | false =>
          rw [sample]
          exact .idle (Or.inr held)
      | true =>
          rw [held] at reported
          cases ih with
          | idle broken =>
              refine .pending (Streak.begin held broken) ?_
              intro k later earlier
              rw [Nat.le_antisymm (Nat.lt_succ_iff.mp earlier) later, reported]
              exact fun fired => by cases fired
          | @pending first streak quiet =>
              by_cases old : enough (now first) (now n)
              · have fired : reportAt enough now holds n = some .firing := by
                  rw [reported]
                  simp [sample, old]
                simp only [sample, old, if_true, Bool.false_eq_true, if_false]
                exact .firing (streak.succ held) (Nat.le_of_lt streak.started)
                  (Nat.lt_succ_self n) fired
              · have silent : reportAt enough now holds n = none := by
                  rw [reported]
                  simp [sample, old]
                simp only [sample, old, if_true, Bool.false_eq_true, if_false]
                refine .pending (streak.succ held) ?_
                intro k later earlier
                rcases Nat.lt_succ_iff_lt_or_eq.mp earlier with before | rfl
                · exact quiet k later before
                · rw [silent]
                  exact fun fired => by cases fired
          | firing streak later earlier fired =>
              exact .firing (streak.succ held) later (Nat.lt_succ_of_lt earlier) fired

/-! ## What is reported when -/

/-- The detector fires only where the condition holds. -/
theorem holds_of_firing {n : Nat} (fired : reportAt enough now holds n = some .firing) :
    holds n = true := by
  unfold reportAt sample at fired
  cases held : holds n with
  | true => rfl
  | false =>
      rw [held] at fired
      simp only [Bool.false_eq_true, if_false] at fired
      split at fired
      · cases fired
      · cases fired

/-- The detector fires at a sample exactly when the condition holds there, the streak that
it belongs to began long enough before, and it has not fired in this streak. -/
theorem firing_iff (n : Nat) :
    reportAt enough now holds n = some .firing ↔
      holds n = true ∧ ∃ first, Streak holds first n ∧ enough (now first) (now n) ∧
        ∀ k, first ≤ k → k < n → reportAt enough now holds k ≠ some .firing := by
  have described := describes_stateAt enough now holds n
  have reported : reportAt enough now holds n =
      (sample enough (stateAt enough now holds n) (now n) (holds n)).2 := rfl
  generalize stateAt enough now holds n = d at described reported
  constructor
  · intro fired
    have held := holds_of_firing enough now holds fired
    rw [reported, held] at fired
    refine ⟨held, ?_⟩
    cases described with
    | idle broken => cases fired
    | @pending first streak quiet =>
        refine ⟨first, streak, ?_, quiet⟩
        by_contra recent
        simp [sample, recent] at fired
    | firing streak later earlier before => cases fired
  · rintro ⟨held, first, streak, old, quiet⟩
    rw [reported, held]
    cases described with
    | idle broken =>
        have started := streak.started
        rcases broken with zero | broken
        · omega
        · rw [streak.unbroken (n - 1) (by omega) (by omega)] at broken
          cases broken
    | pending streak' quiet' =>
        rw [streak'.unique streak]
        simp [sample, old]
    | firing streak' later earlier before =>
        rw [streak'.unique streak] at later
        exact absurd before (quiet _ later earlier)

/-- The detector resolves at the first sample after a firing at which the condition fails. -/
theorem resolved_iff (n : Nat) :
    reportAt enough now holds n = some .resolved ↔
      holds n = false ∧ ∃ k < n, reportAt enough now holds k = some .firing ∧
        ∀ l, k < l → l < n → holds l = true := by
  have described := describes_stateAt enough now holds n
  have reported : reportAt enough now holds n =
      (sample enough (stateAt enough now holds n) (now n) (holds n)).2 := rfl
  generalize stateAt enough now holds n = d at described reported
  constructor
  · intro resolved
    rw [reported] at resolved
    cases held : holds n with
    | true =>
        rw [held] at resolved
        unfold sample at resolved
        simp only [if_true] at resolved
        split at resolved
        · cases resolved
        · split at resolved
          · cases resolved
          · split at resolved
            · cases resolved
            · cases resolved
    | false =>
        rw [held] at resolved
        refine ⟨rfl, ?_⟩
        cases described with
        | idle broken => cases resolved
        | pending streak quiet => cases resolved
        | @firing first k streak later earlier fired =>
            refine ⟨k, earlier, fired, ?_⟩
            intro l after before
            exact streak.unbroken l (by omega) before
  · rintro ⟨failed, k, earlier, fired, between⟩
    have heldThen := holds_of_firing enough now holds fired
    -- the condition has held since the firing, so the detector is still firing
    have held : ∀ l, k ≤ l → l < n → holds l = true := by
      intro l after before
      rcases Nat.lt_or_eq_of_le after with later | rfl
      · exact between l later before
      · exact heldThen
    rw [reported, failed]
    cases described with
    | idle broken =>
        rcases broken with zero | broken
        · omega
        · rw [held (n - 1) (by omega) (by omega)] at broken
          cases broken
    | @pending first streak quiet =>
        have started := streak.started
        have early : k < first := by
          by_contra late
          exact quiet k (by omega) earlier fired
        rcases streak.fresh with zero | broken
        · omega
        · rw [held (first - 1) (by omega) (by omega)] at broken
          cases broken
    | firing streak later before fired' => rfl

/-! ## Alternation -/

/-- The last report before a sample. -/
def LastReport (report : Nat → Option Report) (n : Nat) (kind : Report) : Prop :=
  ∃ k < n, report k = some kind ∧ ∀ l, k < l → l < n → report l = none

theorem LastReport.succ {report : Nat → Option Report} {n : Nat} {kind : Report}
    (last : LastReport report n kind) (silent : report n = none) :
    LastReport report (n + 1) kind := by
  obtain ⟨k, before, reported, between⟩ := last
  refine ⟨k, Nat.lt_succ_of_lt before, reported, ?_⟩
  intro l after earlier
  rcases Nat.lt_succ_iff_lt_or_eq.mp earlier with sooner | rfl
  · exact between l after sooner
  · exact silent

theorem LastReport.here {report : Nat → Option Report} {n : Nat} {kind : Report}
    (reported : report n = some kind) : LastReport report (n + 1) kind := by
  refine ⟨n, Nat.lt_succ_self n, reported, ?_⟩
  intro l after earlier
  omega

/-- Every report but the first follows one of the other kind, and the first is a firing. -/
def Alternates (report : Nat → Option Report) : Prop :=
  ∀ n kind, report n = some kind →
    (kind = .firing ∧ ∀ l < n, report l = none) ∨
      ∃ other, LastReport report n other ∧ other ≠ kind

/-- What a sample does to the flag. -/
theorem sample_flag (d : Detector Instant) (now : Instant) (holds : Bool) :
    ((sample enough d now holds).2 = none ∧ (sample enough d now holds).1.firing = d.firing) ∨
      ((sample enough d now holds).2 = some .firing ∧ d.firing = false ∧
        (sample enough d now holds).1.firing = true) ∨
      ((sample enough d now holds).2 = some .resolved ∧ d.firing = true ∧
        (sample enough d now holds).1.firing = false) := by
  obtain ⟨firing, since⟩ := d
  cases holds with
  | false =>
      cases firing with
      | false => exact Or.inl ⟨rfl, rfl⟩
      | true => exact Or.inr (Or.inr ⟨rfl, rfl, rfl⟩)
  | true =>
      cases firing with
      | true => exact Or.inl ⟨rfl, rfl⟩
      | false =>
          cases since with
          | none => exact Or.inl ⟨rfl, rfl⟩
          | some since =>
              by_cases old : enough since now
              · refine Or.inr (Or.inl ?_)
                simp [sample, old]
              · refine Or.inl ?_
                simp [sample, old]

/-- The flag tells which report came last. -/
theorem last_report (n : Nat) :
    ((stateAt enough now holds n).firing = true →
        LastReport (reportAt enough now holds) n .firing) ∧
      ((stateAt enough now holds n).firing = false →
        (∀ l < n, reportAt enough now holds l = none) ∨
          LastReport (reportAt enough now holds) n .resolved) := by
  induction n with
  | zero =>
      refine ⟨fun firing => (by cases firing), fun _ => Or.inl ?_⟩
      intro l impossible
      exact absurd impossible (Nat.not_lt_zero l)
  | succ n ih =>
      obtain ⟨ifFiring, ifQuiet⟩ := ih
      rcases sample_flag enough (stateAt enough now holds n) (now n) (holds n) with
        ⟨silent, kept⟩ | ⟨fired, off, on⟩ | ⟨resolved, on, off⟩
      · have none : reportAt enough now holds n = none := silent
        constructor
        · intro firing
          exact (ifFiring (kept.symm.trans firing)).succ none
        · intro quiet
          rcases ifQuiet (kept.symm.trans quiet) with never | last
          · refine Or.inl ?_
            intro l earlier
            rcases Nat.lt_succ_iff_lt_or_eq.mp earlier with sooner | rfl
            · exact never l sooner
            · exact none
          · exact Or.inr (last.succ none)
      · refine ⟨fun _ => LastReport.here fired, fun quiet => ?_⟩
        have firing : (stateAt enough now holds (n + 1)).firing = true := on
        rw [quiet] at firing
        cases firing
      · refine ⟨fun firing => ?_, fun _ => Or.inr (LastReport.here resolved)⟩
        have quiet : (stateAt enough now holds (n + 1)).firing = false := off
        rw [firing] at quiet
        cases quiet

theorem alternates_reportAt : Alternates (reportAt enough now holds) := by
  intro n kind reported
  obtain ⟨ifFiring, ifQuiet⟩ := last_report enough now holds n
  rcases sample_flag enough (stateAt enough now holds n) (now n) (holds n) with
    ⟨silent, _⟩ | ⟨fired, off, _⟩ | ⟨resolved, on, _⟩
  · have none : reportAt enough now holds n = none := silent
    rw [none] at reported
    cases reported
  · have isFiring : kind = .firing := Option.some.inj (reported.symm.trans fired)
    rw [isFiring]
    rcases ifQuiet off with never | last
    · exact Or.inl ⟨rfl, never⟩
    · exact Or.inr ⟨.resolved, last, by decide⟩
  · have isResolved : kind = .resolved := Option.some.inj (reported.symm.trans resolved)
    rw [isResolved]
    exact Or.inr ⟨.firing, ifFiring on, by decide⟩

end Samples

end MiniCloud.Library.Debounce
