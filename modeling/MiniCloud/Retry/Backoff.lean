import MiniCloud.Library.Float64
import MiniCloud.Library.Wrapping

/-!
# Exponential backoff

`Do` waits longer before each further attempt: the delay doubles, is cut off at `cap`, and
less than a quarter of it is added at random.  The doubled delay is a floating-point number
that is converted to 64 bits before it is cut off, and its quarter is passed on to the
random generator whatever it is.
-/

namespace MiniCloud.Retry

open MiniCloud.Library

/-! ## The call -/

/-- The arguments of `Do` after the defaults; durations are in nanoseconds. -/
structure Policy where
  maxAttempts : Int64
  base : Int64
  cap : Int64
  maxAttempts_pos : 0 < maxAttempts
  base_pos : 0 < base
  cap_pos : 0 < cap

def orDefault (value default : Int64) : Int64 := if value ≤ 0 then default else value

theorem orDefault_pos {default : Int64} (positive : 0 < default) (value : Int64) :
    0 < orDefault value default := by
  unfold orDefault
  split
  · exact positive
  · rename_i above
    exact Int64.not_le.mp above

namespace Policy

def of (maxAttempts base cap : Int64) : Policy where
  maxAttempts := orDefault maxAttempts 6
  base := orDefault base 100000000
  cap := orDefault cap 30000000000
  maxAttempts_pos := orDefault_pos (by decide) _
  base_pos := orDefault_pos (by decide) _
  cap_pos := orDefault_pos (by decide) _

variable (p : Policy) (attempt : Nat)

/-- `float64(base) * math.Pow(2, float64(attempt-1))`.  A product that is infinite in binary64
is one that is out of range for 64 bits here. -/
def product : ℚ := roundFloat64 (roundFloat64 p.base.toInt * 2 ^ (attempt - 1))

/-- The delay before jitter. -/
def delay : Int64 :=
  let d := truncInt64 (p.product attempt)
  if p.cap < d then p.cap else d

/-- The argument of `rand.Int64N`. -/
def jitterBound : Int64 := p.delay attempt / 4

end Policy

/-- What `Do` meets at each attempt. -/
structure Env where
  /-- `ctx.Err()` when the attempt begins. -/
  ctxErr : Nat → Option String
  fn : Nat → Option String
  isPermanent : Option (String → Bool)
  /-- `rand.Int64N` for a positive argument. -/
  int64N : Nat → Int64 → Int64
  int64N_range : ∀ attempt n, 0 < n → 0 ≤ int64N attempt n ∧ int64N attempt n < n
  /-- The error of the context if it is done before the delay is over. -/
  cancelled : Nat → Option String

inductive Outcome where
  | returned (err : Option String)
  | panicked
  deriving DecidableEq, Repr

/-- The loop of `Do`, with the delays that it passes to `time.After`. -/
def attempts (env : Env) (p : Policy) : Nat → Nat → Option String → Outcome × List Int64
  | 0, _, last => (.returned last, [])
  | left + 1, attempt, _ =>
      match env.ctxErr attempt with
      | some err => (.returned (some err), [])
      | none =>
          match env.fn attempt with
          | none => (.returned none, [])
          | some err =>
              if (env.isPermanent.map fun test => test err).getD false then
                (.returned (some err), [])
              else if attempt = p.maxAttempts.toInt then (.returned (some err), [])
              -- `Int64N` panics on an argument that is not positive
              else if p.jitterBound attempt ≤ 0 then (.panicked, [])
              else
                let d := p.delay attempt + env.int64N attempt (p.jitterBound attempt)
                match env.cancelled attempt with
                | some err => (.returned (some err), [d])
                | none =>
                    let rest := attempts env p left (attempt + 1) (some err)
                    (rest.1, d :: rest.2)

/-- `Do` -/
def doRetry (env : Env) (maxAttempts base cap : Int64) : Outcome × List Int64 :=
  let p := Policy.of maxAttempts base cap
  attempts env p p.maxAttempts.toInt.toNat 1 none

/-! ## Delays -/

namespace Policy

variable (p : Policy) (attempt : Nat)

/-- The delay of an attempt as an integer, before it is cut off. -/
def doubled : Int := p.base.toInt * 2 ^ (attempt - 1)

/-- Neither `base` nor the product is rounded. -/
structure Exact : Prop where
  base : roundFloat64 p.base.toInt = p.base.toInt
  product : roundFloat64 (p.doubled attempt) = p.doubled attempt

/-- The total delay is below this. -/
def most : Int := p.cap.toInt + p.cap.toInt / 4 + 1

/-- The delay before jitter is positive and not above `cap`, `Int64N` does not panic on its
quarter, and no jitter takes the total above a quarter more than `cap`. -/
structure Safe : Prop where
  positive : 0 < p.delay attempt
  capped : p.delay attempt ≤ p.cap
  jitter : 0 < p.jitterBound attempt
  total : ∀ jitter : Int64, 0 ≤ jitter → jitter < p.jitterBound attempt →
    (p.delay attempt + jitter).toInt < p.most

variable {p attempt}

theorem doubled_pos : 0 < p.doubled attempt :=
  Int.mul_pos ((pos_iff_toInt_pos _).mp p.base_pos) (Int.pow_pos (by decide))

theorem product_of_exact (exact : p.Exact attempt) : p.product attempt = p.doubled attempt := by
  have asProduct : (p.base.toInt : ℚ) * 2 ^ (attempt - 1) = (p.doubled attempt : ℚ) := by
    rw [doubled]
    push_cast
    rfl
  rw [Policy.product, exact.base, asProduct, exact.product]

/-- The delay is cut off at `cap` unless the product is out of range. -/
theorem toInt_delay (exact : p.Exact attempt) :
    (p.delay attempt).toInt =
      if p.doubled attempt < 2 ^ 63 then min p.cap.toInt (p.doubled attempt) else -(2 ^ 63) := by
  have positive : 0 < p.doubled attempt := doubled_pos
  have capPositive := (pos_iff_toInt_pos _).mp p.cap_pos
  rw [delay, toInt_cut_above, product_of_exact exact, toInt_truncInt64]
  by_cases fits : p.doubled attempt < 2 ^ 63
  · rw [if_pos ⟨by omega, fits⟩, if_pos fits]
  · rw [if_neg (fun inRange => fits inRange.2), if_neg fits]
    omega

theorem toInt_jitterBound (p : Policy) (attempt : Nat) :
    (p.jitterBound attempt).toInt =
      (p.delay attempt).toInt / 4 +
        if 0 ≤ (p.delay attempt).toInt ∨ 4 ∣ (p.delay attempt).toInt then 0 else 1 := by
  have low := (p.delay attempt).le_toInt
  have high := (p.delay attempt).toInt_lt
  have four : (4 : Int64).toInt = 4 := rfl
  have sign : (4 : Int).sign = 1 := rfl
  rw [jitterBound, Int64.toInt_div, four, Int.tdiv_eq_ediv, sign]
  split
  · exact bmod64_of_fits (by omega) (by omega)
  · exact bmod64_of_fits (by omega) (by omega)

/-- The product is in range, and neither it nor `cap` is below four nanoseconds. -/
structure Enough (p : Policy) (attempt : Nat) : Prop where
  inRange : p.doubled attempt < 2 ^ 63
  product : 4 ≤ p.doubled attempt
  cap : 4 ≤ p.cap.toInt

theorem safe_of_enough (exact : p.Exact attempt) (enough : p.Enough attempt) : p.Safe attempt := by
  obtain ⟨inRange, fourProduct, fourCap⟩ := enough
  have isDelay := toInt_delay exact
  have isBound := p.toInt_jitterBound attempt
  rw [if_pos inRange] at isDelay
  rw [if_pos (Or.inl (by omega))] at isBound
  refine ⟨?_, ?_, ?_, ?_⟩
  · exact (pos_iff_toInt_pos _).mpr (by omega)
  · exact Int64.le_iff_toInt_le.mpr (by omega)
  · exact (pos_iff_toInt_pos _).mpr (by omega)
  · intro jitter notNegative below
    have notNegative : 0 ≤ jitter.toInt := Int64.le_iff_toInt_le.mp notNegative
    have below := Int64.lt_iff_toInt_lt.mp below
    have capFits := p.cap.toInt_lt
    rw [Int64.toInt_add, most]
    -- the sum may wrap around for a large `cap`, and is negative then
    by_cases fits : (p.delay attempt).toInt + jitter.toInt < 9223372036854775808
    · rw [bmod64_of_fits (by omega) fits]
      omega
    · rw [bmod64_of_above (by omega) (by omega)]
      omega

theorem enough_of_safe (exact : p.Exact attempt) (safe : p.Safe attempt) : p.Enough attempt := by
  have isDelay := toInt_delay exact
  have isBound := p.toInt_jitterBound attempt
  have positive := (pos_iff_toInt_pos _).mp safe.positive
  have jitter := (pos_iff_toInt_pos _).mp safe.jitter
  rw [if_pos (Or.inl (by omega))] at isBound
  by_cases inRange : p.doubled attempt < 2 ^ 63
  · rw [if_pos inRange] at isDelay
    exact ⟨inRange, by omega, by omega⟩
  · rw [if_neg inRange] at isDelay
    omega

end Policy

/-- The arithmetic of an attempt is safe exactly if the product is below 2^63 and neither
the product nor `cap` is below four nanoseconds. -/
theorem backoff_safe_iff (p : Policy) (attempt : Nat) (exact : p.Exact attempt) :
    p.Safe attempt ↔ p.Enough attempt :=
  ⟨p.enough_of_safe exact, p.safe_of_enough exact⟩

/-- The second attempt with the defaults. -/
theorem backoff_safe_by_default :
    (Policy.of 0 0 0).Exact 2 ∧ (Policy.of 0 0 0).delay 2 = 200000000 ∧
      (Policy.of 0 0 0).Safe 2 := by
  have exact : (Policy.of 0 0 0).Exact 2 := ⟨by decide +kernel, by decide +kernel⟩
  exact ⟨exact, by decide +kernel,
    (backoff_safe_iff _ _ exact).mpr ⟨by decide +kernel, by decide +kernel, by decide +kernel⟩⟩

/-! ## Calls -/

section Calls

variable (env : Env) {p : Policy}

/-- From an attempt on, a call whose attempts are safe does not panic, and no delay is above
the bound. -/
theorem attempts_safe {left attempt : Nat} (last : Option String)
    (remaining : (left + attempt : Int) = p.maxAttempts.toInt + 1)
    (safe : ∀ later : Nat, attempt ≤ later → later < p.maxAttempts.toInt → p.Safe later) :
    (attempts env p left attempt last).1 ≠ .panicked ∧
      ∀ d ∈ (attempts env p left attempt last).2, d.toInt < p.most := by
  induction left generalizing attempt last with
  | zero => exact ⟨Outcome.noConfusion, fun d waited => absurd waited List.not_mem_nil⟩
  | succ left ih =>
      have none (err : Option String) : (Outcome.returned err, ([] : List Int64)).1 ≠ .panicked ∧
          ∀ d ∈ (Outcome.returned err, ([] : List Int64)).2, d.toInt < p.most :=
        ⟨Outcome.noConfusion, fun d waited => absurd waited List.not_mem_nil⟩
      rw [attempts]
      split
      · exact none _
      · split
        · exact none _
        · rename_i err failed
          split
          · exact none _
          · split
            · exact none _
            · rename_i notLast
              have here := safe attempt le_rfl (by omega)
              obtain ⟨notNegative, below⟩ := env.int64N_range attempt _ here.jitter
              have total := here.total _ notNegative below
              rw [if_neg (Int64.not_le.mpr here.jitter)]
              split
              · refine ⟨Outcome.noConfusion, fun d waited => ?_⟩
                rw [List.mem_singleton.mp waited]
                exact total
              · have fewer : (left + (attempt + 1 : Nat) : Int) = p.maxAttempts.toInt + 1 := by
                  omega
                obtain ⟨returns, bounded⟩ := ih (some err) fewer
                  fun later after => safe later (by omega)
                refine ⟨returns, fun d waited => ?_⟩
                rcases List.mem_cons.mp waited with rfl | later
                · exact total
                · exact bounded d later

/-- `Do` does not panic, and waits no longer than the bound, if the arithmetic of each attempt
below `maxAttempts` is exact and has enough room. -/
theorem doRetry_safe (maxAttempts base cap : Int64)
    (enough : ∀ attempt : Nat, 1 ≤ attempt →
      attempt < (Policy.of maxAttempts base cap).maxAttempts.toInt →
        (Policy.of maxAttempts base cap).Exact attempt ∧
          (Policy.of maxAttempts base cap).Enough attempt) :
    (doRetry env maxAttempts base cap).1 ≠ .panicked ∧
      ∀ d ∈ (doRetry env maxAttempts base cap).2,
        d.toInt < (Policy.of maxAttempts base cap).most := by
  have positive := (pos_iff_toInt_pos _).mp (Policy.of maxAttempts base cap).maxAttempts_pos
  refine attempts_safe env none (by omega) fun attempt first below => ?_
  obtain ⟨exact, room⟩ := enough attempt first below
  exact Policy.safe_of_enough exact room

end Calls

/-- The function fails at each attempt, and no jitter is added. -/
def failing : Env where
  ctxErr := fun _ => none
  fn := fun _ => some "unavailable"
  isPermanent := none
  int64N := fun _ _ => 0
  int64N_range := fun _ _ positive => ⟨by decide, positive⟩
  cancelled := fun _ => none

/-- With the default delays the product is out of range at the attempt with number 38, and
with a delay of one nanosecond its quarter is zero at the first; `Do` panics both times. -/
theorem backoff_panics :
    ((Policy.of 50 0 0).Exact 38 ∧ (Policy.of 50 0 0).delay 38 = Int64.minValue ∧
        (Policy.of 50 0 0).jitterBound 38 = -2305843009213693952 ∧
        ¬ (Policy.of 50 0 0).Safe 38 ∧ (doRetry failing 50 0 0).1 = .panicked) ∧
      (Policy.of 3 1 0).Exact 1 ∧ (Policy.of 3 1 0).delay 1 = 1 ∧
        (Policy.of 3 1 0).jitterBound 1 = 0 ∧ ¬ (Policy.of 3 1 0).Safe 1 ∧
        doRetry failing 3 1 0 = (.panicked, []) := by
  have far : (Policy.of 50 0 0).jitterBound 38 = -2305843009213693952 := by decide +kernel
  have near : (Policy.of 3 1 0).jitterBound 1 = 0 := by decide +kernel
  refine ⟨⟨⟨by decide +kernel, by decide +kernel⟩, by decide +kernel, far, ?_, by decide +kernel⟩,
    ⟨by decide +kernel, by decide +kernel⟩, by decide +kernel, near, ?_, by decide +kernel⟩
  · intro safe
    have positive := safe.jitter
    rw [far] at positive
    exact absurd positive (by decide)
  · intro safe
    have positive := safe.jitter
    rw [near] at positive
    exact absurd positive (by decide)

end MiniCloud.Retry
