import ChipEight.Proofs.Nearest
import ChipEight.Timers
/-! # The time that is carried

How many ticks a time is worth is counted with floats, and so the count may be off by a few, by more
than rounding: what is carried is then some ticks short, or some too many.  But it never is more
than a few (`Timers.wholeTicks_pays`).  So as long as neither the times nor the number of ticks come
near the end of the range, paying succeeds, and leaves what can be paid from again (`Timers.pays`).
-/

namespace ChipEight

namespace Number

variable {f g : Float} {r v X I S miss : ℚ}

/-! ## Slack -/

theorem abs_mul_pos (a : ℚ) {c : ℚ} (positive : 0 < c) : |a| * c = |a * c| := by
  rw [abs_mul, abs_of_pos positive]

/-- The rounding of a few numbers of the size `S` or less moves none of them by more than this. -/
def slack (S : ℚ) : ℚ := S / 2 ^ 49

theorem speck_mul_le {c S : ℚ} (nonneg : 0 ≤ c) (unit : c ≤ S) : speck * c ≤ S / 2 ^ 50 := by
  have tiny : speck ≤ 1 / 2 ^ 50 := by
    have : speck ≤ 2 ^ (-50 : ℤ) := by
      rw [speck]
      exact two_zpow_le (by norm_num)
    norm_num at this ⊢
    exact this
  have least := mul_le_mul_of_nonneg_right tiny nonneg
  linarith

/-- From one on, rounding changes a number by less than itself. -/
theorem Rounds.le_two_mul (h : Rounds r v) (one : 1 ≤ r) : v ≤ 2 * r := by
  have close := (abs_le.mp h.close).2
  have tiny := speck_mul_le zero_le_one one
  rw [abs_of_nonneg (by linarith)] at close
  linarith

theorem Rounds.half_le (h : Rounds r v) (one : 1 ≤ r) : r ≤ 2 * v := by
  have close := (abs_le.mp h.close).1
  have tiny := speck_mul_le zero_le_one one
  rw [abs_of_nonneg (by linarith)] at close
  linarith

theorem Rounds.scaled {c S : ℚ} (h : Rounds r v) (nonneg : 0 ≤ c) (unit : c ≤ S)
    (size : |r| * c ≤ 8 * S) : |v * c - r * c| ≤ slack S := by
  have close := mul_le_mul_of_nonneg_right h.close nonneg
  have least := speck_mul_le nonneg unit
  rw [← sub_mul, abs_mul, abs_of_nonneg nonneg]
  unfold slack
  linarith

theorem Rounds.near {S : ℚ} (h : Rounds r v) (fine : 2 ^ 50 * speck ≤ S) (size : |r| ≤ 8 * S) :
    |v - r| ≤ slack S := by
  have close := h.close
  unfold slack
  linarith

/-! ## Counting -/

/-- A time `X` and the length `I` of a tick are such that the ticks in it can be counted: neither is
larger than `S`, which is far from the end of the range, in seconds as well as in ticks. -/
structure Countable (I X S : ℚ) : Prop where
  fine : 2 ^ 50 * speck ≤ I
  unit : I ≤ S
  within : |X| ≤ S
  wide : 8 * S < reach
  many : 8 * S < reach * I

theorem Countable.pos (h : Countable I X S) : 0 < I :=
  lt_of_lt_of_le (mul_pos (by norm_num) speck_pos) h.fine

/-- What is worth few enough ticks is within the range. -/
theorem Countable.inside (h : Countable I X S) {D : ℚ} (size : |D| * I ≤ 8 * S) : |D| < reach :=
  lt_of_mul_lt_mul_right (lt_of_le_of_lt size h.many) h.pos.le

theorem Countable.size (h : Countable I X S) {D : ℚ} (close : |D * I - X| ≤ miss)
    (le : miss ≤ 6 * S) : |D| * I ≤ 7 * S := by
  have within := h.within
  have far := abs_sub_abs_le_abs_sub (D * I) X
  rw [← abs_mul_pos D h.pos] at far
  linarith

theorem Countable.slack_pos (h : Countable I X S) : 0 < slack S :=
  div_pos (lt_of_lt_of_le h.pos h.unit) (by norm_num)

theorem Countable.slack_le (h : Countable I X S) : slack S ≤ S / 100 := by
  have := lt_of_lt_of_le h.pos h.unit
  unfold slack
  linarith

/-- A float is about the number of ticks in a time, which is missed by less than `miss`. -/
def Counts (I X miss : ℚ) (f : Float) : Prop := ∃ D, value? f = some D ∧ |D * I - X| ≤ miss

theorem Counts.mono {miss' : ℚ} (counts : Counts I X miss f) (le : miss ≤ miss') :
    Counts I X miss' f := by
  obtain ⟨D, value, close⟩ := counts
  exact ⟨D, value, close.trans le⟩

/-- The next whole tick, up or down. -/
theorem Counts.rounded {D : ℚ} (h : Countable I X S) (close : |D * I - X| ≤ miss) (step : ℚ)
    (one : |step| ≤ 1) (le : miss ≤ 6 * S) (renders : Renders (D + step) f) :
    Counts I X (miss + I + slack S) f := by
  have size := h.size close le
  have positive := h.pos
  have unit := h.unit
  have step_ : |step| * I ≤ I := mul_le_of_le_one_left positive.le one
  have shift : |D + step| * I ≤ 8 * S := by
    have := mul_le_mul_of_nonneg_right (abs_add_le D step) positive.le
    rw [add_mul] at this
    linarith
  obtain ⟨D', value, rounds⟩ := renders.inside (h.inside shift)
  refine ⟨D', value, ?_⟩
  have rounded := abs_le.mp (rounds.scaled positive.le unit shift)
  have close := abs_le.mp close
  rw [abs_mul_pos step positive] at step_
  have stepped := abs_le.mp step_
  rw [add_mul] at rounded
  rw [abs_le]
  constructor <;> linarith

theorem Counts.sub_one (counts : Counts I X miss f) (h : Countable I X S) (le : miss ≤ 6 * S) :
    Counts I X (miss + I + slack S) (f - 1.0) := by
  obtain ⟨D, value, close⟩ := counts
  exact .rounded h close (-1) (by norm_num) le (sub_eq_add_neg D 1 ▸ sub_renders value value?_one)

theorem Counts.add_one (counts : Counts I X miss f) (h : Countable I X S) (le : miss ≤ 6 * S) :
    Counts I X (miss + I + slack S) (f + 1.0) := by
  obtain ⟨D, value, close⟩ := counts
  exact .rounded h close 1 (by norm_num) le (add_renders value value?_one)

theorem Counts.floor (counts : Counts I X miss f) (h : Countable I X S) (le : miss ≤ 6 * S) :
    Counts I X (miss + I + slack S) (floor f) := by
  obtain ⟨D, value, close⟩ := counts
  have size := h.size close le
  have positive := h.pos
  have unit := h.unit
  obtain ⟨Q, whole, below⟩ := floor_close value
  have cut := mul_le_mul_of_nonneg_right below positive.le
  rw [abs_mul_pos _ positive, sub_mul] at cut
  have least := speck_mul_le positive.le unit
  have cut : |Q * I - D * I| ≤ I + slack S := by
    unfold slack
    linarith
  have far := abs_sub_le (Q * I) (D * I) X
  exact ⟨Q, whole, by linarith⟩

/-- To go to the nearest whole tick. -/
theorem Counts.whole (counts : Counts I X miss f) (h : Countable I X S) (le : miss ≤ 4 * S) :
    Counts I X (miss + 2 * I + 2 * slack S)
      (if f != 0.0 then
        let q := Number.floor f
        if f - q > 0.5 then q + 1.0 else q
      else 0.0) := by
  have positive := h.pos
  have unit := h.unit
  have slight := h.slack_pos
  have slight' := h.slack_le
  have floored := counts.floor h (by linarith)
  split
  · dsimp only
    split
    · exact (floored.add_one h (by linarith)).mono (by linarith)
    · exact floored.mono (by linarith)
  · rename_i zero
    obtain ⟨D, value, close⟩ := counts
    have none_ : D = 0 := (beq_zero value).mp (by simpa [bne] using zero)
    rw [none_] at close
    exact ⟨0, value?_nil, by linarith⟩

/-- A remainder is not larger than a tick, but for rounding. -/
theorem Countable.remainder (h : Countable I X S) (dividend : value? f = some X)
    (divisor : value? g = some I) :
    ∃ M, value? (remainder f g) = some M ∧ |M| ≤ I + slack S := by
  have positive := h.pos
  have unit := h.unit
  have within := h.within
  have wide := h.wide
  obtain ⟨negative, r, M, remains, rounds, nonneg, less, -⟩ :=
    remainder_renders dividend divisor positive.ne' (by linarith)
  rw [abs_of_pos positive] at less
  refine ⟨M, remains, ?_⟩
  have near := rounds.near (le_trans h.fine unit) (by
    rw [abs_signed, abs_of_nonneg nonneg]
    linarith)
  have far := abs_sub_abs_le_abs_sub M (signed negative r)
  rw [abs_signed, abs_of_nonneg nonneg] at far
  linarith

/-- The time without the remainder, divided by a tick, counts the ticks. -/
theorem Countable.quotient (h : Countable I X S) (dividend : value? f = some X)
    (divisor : value? g = some I) :
    Counts I X (I + 3 * slack S) ((f - Number.remainder f g) / g) := by
  have positive := h.pos
  have unit := h.unit
  have within := h.within
  have wide := h.wide
  have slight := h.slack_pos
  have slight' := h.slack_le
  obtain ⟨M, remains, rest⟩ := h.remainder dividend divisor
  have size : |X - M| ≤ 3 * S := by
    have := abs_sub X M
    linarith
  obtain ⟨U, difference, near⟩ := (sub_renders dividend remains).inside (by linarith)
  have close := near.near (le_trans h.fine unit) (by linarith)
  have whole : |U / I| * I = |U| := by
    rw [abs_div, abs_of_pos positive, div_mul_cancel₀ _ positive.ne']
  have size' : |U / I| * I ≤ 8 * S := by
    rw [whole]
    have := abs_sub_abs_le_abs_sub U (X - M)
    linarith
  obtain ⟨D, divided, rounds⟩ :=
    (div_renders difference divisor positive.ne').inside (h.inside size')
  refine ⟨D, divided, ?_⟩
  have rounded := rounds.scaled positive.le unit size'
  rw [div_mul_cancel₀ _ positive.ne'] at rounded
  have rounded := abs_le.mp rounded
  have close := abs_le.mp close
  have rest := abs_le.mp rest
  rw [abs_le]
  constructor <;> linarith

/-- **A floor quotient counts the ticks**, but for a few. -/
theorem floorQuotient_counts (dividend : value? f = some X) (divisor : value? g = some I)
    (h : Countable I X S) : Counts I X (4 * I + 6 * slack S) (floorQuotient f g) := by
  have positive := h.pos
  have unit := h.unit
  have slight := h.slack_pos
  have slight' := h.slack_le
  have counts := h.quotient dividend divisor
  have down : Counts I X (2 * I + 4 * slack S)
      (if Number.remainder f g != 0.0 && (g < 0.0) != (Number.remainder f g < 0.0)
        then (f - Number.remainder f g) / g - 1.0 else (f - Number.remainder f g) / g) := by
    split
    · exact (counts.sub_one h (by linarith)).mono (by linarith)
    · exact counts.mono (by linarith)
  exact (down.whole h (by linarith)).mono (by linarith)

end Number

namespace Timers

open Number

/-! ## Paying -/

variable {x i c e : Float} {X I S C E T : ℚ}

theorem wholeTicks_of_truncate {n : ℤ} (interval : value? i = some I) (nonzero : I ≠ 0)
    (counted : truncate? (floorQuotient x i) = some n) : wholeTicks x i = .ok n := by
  unfold wholeTicks
  rw [if_neg fun zero => nonzero ((beq_zero interval).mp zero)]
  dsimp only
  rw [counted]

/-- **A time is worth its ticks**: the ticks are counted, and paying for them leaves a rest of a few
ticks. -/
theorem wholeTicks_pays (collected : value? x = some X) (interval : value? i = some I)
    (h : Countable I X S) : ∃ n p c C, wholeTicks x i = .ok n ∧ floatOfInt? n = some p ∧
      x - p * i = c ∧ value? c = some C ∧ |C| ≤ 5 * I + 9 * slack S := by
  have positive := h.pos
  have unit := h.unit
  have within := h.within
  have slight := h.slack_pos
  have slight' := h.slack_le
  have fine := le_trans h.fine unit
  -- the count is off by a few ticks, and each step from it to the rest by a slack
  obtain ⟨Q, quotient, counted⟩ := floorQuotient_counts collected interval h
  obtain ⟨n, truncated, cut⟩ := truncate?_close quotient
  have ticks := wholeTicks_of_truncate interval positive.ne' truncated
  have near : |n * I - X| ≤ 5 * I + 6 * slack S := by
    have cut := mul_le_mul_of_nonneg_right cut.le positive.le
    rw [abs_mul_pos _ positive, sub_mul, one_mul] at cut
    have far := abs_sub_le (n * I) (Q * I) X
    linarith
  have size := h.size near (by linarith)
  obtain ⟨p, P, stored, value, rounds⟩ := floatOfInt?_rounds n (h.inside (by linarith))
  have rounded := rounds.scaled positive.le unit (by linarith)
  have near' : |P * I - X| ≤ 5 * I + 7 * slack S := by
    have far := abs_sub_le (P * I) (n * I) X
    linarith
  have size' := h.size near' (by linarith)
  rw [abs_mul_pos P positive] at size'
  obtain ⟨W, product, paid⟩ := (mul_renders value interval).inside (by linarith [h.wide])
  have paid := paid.near fine (by linarith)
  have near'' : |X - W| ≤ 5 * I + 8 * slack S := by
    have far := abs_sub_le W (P * I) X
    rw [abs_sub_comm]
    linarith
  obtain ⟨C, left_, rest⟩ := (sub_renders collected product).inside (by linarith [h.wide])
  have rest := rest.near fine (by linarith)
  have far := abs_sub_abs_le_abs_sub C (X - W)
  exact ⟨n, p, _, C, ticks, stored, rfl, left_, by linarith⟩

/-- A time that is shorter than a tick stays as it is: every step on the way is exact. -/
theorem wholeTicks_waits (collected : value? x = some X) (interval : value? i = some I)
    (nonneg : 0 ≤ X) (less : X < I) (inside : X < reach) : ∃ p c, wholeTicks x i = .ok 0 ∧
      floatOfInt? 0 = some p ∧ x - p * i = c ∧ value? c = some X := by
  have positive : 0 < I := lt_of_le_of_lt nonneg less
  have size : |X| < reach := by rwa [abs_of_nonneg nonneg]
  have none_ : |(0 : ℚ)| < reach := by
    rw [abs_zero]
    exact lt_of_le_of_lt nonneg inside
  have remains : value? (remainder x i) = some X := by
    obtain ⟨negative, r, M, remains, rounds, -, -, same⟩ :=
      remainder_renders collected interval positive.ne' size
    rw [same (by rwa [abs_of_nonneg nonneg, abs_of_pos positive])] at rounds
    rw [remains, rounds.eq_self (rounds_self collected)]
  have difference : value? (x - remainder x i) = some 0 := by
    have renders := sub_renders collected remains
    rw [sub_self] at renders
    exact renders.exact none_ rounds_zero
  have quotient : value? ((x - remainder x i) / i) = some 0 := by
    have renders := div_renders difference interval positive.ne'
    rw [zero_div] at renders
    exact renders.exact none_ rounds_zero
  have kept : ((remainder x i != 0.0) && (i < 0.0) != (remainder x i < 0.0)) = false := by
    simp [lt_zero interval positive.le, lt_zero remains nonneg]
  have whole : floorQuotient x i = 0.0 := by
    unfold floorQuotient
    dsimp only
    rw [kept, if_neg Bool.false_ne_true, bne, (beq_zero quotient).mpr rfl, if_neg (by simp)]
  obtain ⟨p, P, stored, value, rounds⟩ := floatOfInt?_rounds 0 (by rwa [Int.cast_zero])
  rw [Int.cast_zero] at rounds
  obtain rfl : P = 0 := rounds.eq_self rounds_zero
  have product : value? (p * i) = some 0 := by
    have renders := mul_renders value interval
    rw [zero_mul] at renders
    exact renders.exact none_ rounds_zero
  have rest : value? (x - p * i) = some X := by
    have renders := sub_renders collected product
    rw [sub_zero] at renders
    exact renders.exact size (rounds_self collected)
  have none_ : truncate? (floorQuotient x i) = some 0 := by
    rw [whole]
    rfl
  exact ⟨p, _, wholeTicks_of_truncate interval positive.ne' none_, stored, rfl, rest⟩

/-! ## Rests -/

/-- What a rest is like where a tick is `I` long and no time is longer than `T`: a few ticks, or,
where ticks are as long as the range allows, so small that all of it is kept. -/
def Rest (I T C : ℚ) : Prop :=
  if 2 ^ 23 * I ≤ reach then |C| ≤ 6 * I + T else 0 ≤ C ∧ 2 ^ 69 * C ≤ reach

/-- The lengths of a tick and of a time for which the ticks can be counted. -/
structure Runs (I T : ℚ) : Prop where
  fine : 2 ^ 50 * speck ≤ I
  nonneg : 0 ≤ T
  short : 2 ^ 123 * T ≤ reach
  few : 2 ^ 18 * T ≤ reach * I

theorem Runs.pos (runs : Runs I T) : 0 < I :=
  lt_of_lt_of_le (mul_pos (by norm_num) speck_pos) runs.fine

theorem reach_large : 2 ^ 10 < reach := by
  have : (2 : ℚ) ^ (10 : ℤ) < reach := by
    rw [reach]
    exact two_zpow_lt_iff.mpr (by norm_num)
  exact_mod_cast this

theorem reach_eq (n : ℕ) : reach = 2 ^ n * 2 ^ (1023 - n : ℤ) := by
  rw [reach, ← zpow_natCast, ← two_zpow_add, add_sub_cancel]

theorem rest_zero (runs : Runs I T) : Rest I T 0 := by
  have positive := runs.pos
  have nonneg := runs.nonneg
  unfold Rest
  split
  · rw [abs_zero]
    linarith
  · rw [mul_zero]
    exact ⟨le_rfl, by linarith [reach_large]⟩

theorem pays_common (interval : value? i = some I) (runs : Runs I T) (common : 2 ^ 23 * I ≤ reach)
    (carried : value? c = some C) (rest : |C| ≤ 6 * I + T) (seconds : value? e = some E)
    (nonneg : 0 ≤ E) (brief : E ≤ T) :
    ∃ n p c' C', wholeTicks (c + e) i = .ok n ∧ floatOfInt? n = some p ∧
      c + e - p * i = c' ∧ value? c' = some C' ∧ |C'| ≤ 6 * I + T := by
  have positive := runs.pos
  obtain ⟨fine, -, short, few⟩ := runs
  have large := reach_large
  have wide : 8 * (7 * I + 3 * T) < reach := by linarith
  have many : 8 * (7 * I + 3 * T) < reach * I := by
    have := mul_lt_mul_of_pos_right large positive
    linarith
  have fine' : 2 ^ 50 * speck ≤ 7 * I + 3 * T := by linarith
  have sum : |C + E| ≤ 6 * I + 2 * T := by
    have := abs_add_le C E
    rw [abs_of_nonneg nonneg] at this
    linarith
  obtain ⟨X, collected, rounds⟩ := (add_renders carried seconds).inside (by linarith)
  have rounded := rounds.near fine' (by linarith)
  have within : |X| ≤ 7 * I + 3 * T := by
    have := abs_sub_abs_le_abs_sub X (C + E)
    unfold slack at rounded
    linarith
  obtain ⟨n, p, c', C', ticks, stored, paid, left_, small⟩ :=
    wholeTicks_pays collected interval ⟨fine, by linarith, within, wide, many⟩
  refine ⟨n, p, c', C', ticks, stored, paid, left_, ?_⟩
  unfold slack at small
  linarith

theorem pays_long (interval : value? i = some I) (long : ¬ 2 ^ 23 * I ≤ reach)
    (carried : value? c = some C) (nonneg : 0 ≤ C) (rest : 2 ^ 69 * C ≤ reach)
    (seconds : value? e = some E) (nonneg' : 0 ≤ E) (brief : 2 ^ 123 * E ≤ reach) :
    ∃ p c' C', wholeTicks (c + e) i = .ok 0 ∧ floatOfInt? 0 = some p ∧
      c + e - p * i = c' ∧ value? c' = some C' ∧ 0 ≤ C' ∧ 2 ^ 69 * C' ≤ reach := by
  have large := reach_large
  have sum := add_nonneg nonneg nonneg'
  obtain ⟨X, collected, rounds⟩ := (add_renders carried seconds).inside (by
    rw [abs_of_nonneg sum]
    linarith)
  -- the time adds less than half of the last place at the bound, so rounding stops there
  have bound : X ≤ 2 ^ (1023 - (69 : ℕ) : ℤ) := by
    refine rounds.le_two_zpow sum (by norm_num) ?_
    have rest' := reach_eq 69
    have brief' := reach_eq 122
    have : (1023 - (69 : ℕ) - 53 : ℤ) = 1023 - (122 : ℕ) := by norm_num
    rw [this]
    linarith
  have small : 2 ^ 69 * X ≤ reach := by
    rw [reach_eq 69]
    exact mul_le_mul_of_nonneg_left bound (by norm_num)
  obtain ⟨p, c', ticks, stored, paid, left_⟩ :=
    wholeTicks_waits collected interval (rounds.nonneg sum) (by linarith) (by linarith)
  exact ⟨p, c', X, ticks, stored, paid, left_, rounds.nonneg sum, small⟩

/-- **Paying returns and leaves a rest** of which the same is true. -/
theorem pays (interval : value? i = some I) (runs : Runs I T) (carried : value? c = some C)
    (rest : Rest I T C) (seconds : value? e = some E) (nonneg : 0 ≤ E) (brief : E ≤ T) :
    ∃ n p c' C', wholeTicks (c + e) i = .ok n ∧ floatOfInt? n = some p ∧
      c + e - p * i = c' ∧ value? c' = some C' ∧ Rest I T C' := by
  unfold Rest at rest ⊢
  split at rest
  · rename_i common
    obtain ⟨n, p, c', C', ticks, stored, paid, left_, small⟩ :=
      pays_common interval runs common carried rest seconds nonneg brief
    exact ⟨n, p, c', C', ticks, stored, paid, left_, by rwa [if_pos common]⟩
  · rename_i long
    obtain ⟨p, c', C', ticks, stored, paid, left_, small⟩ :=
      pays_long interval long carried rest.1 rest.2 seconds nonneg (by linarith [runs.short])
    exact ⟨0, p, c', C', ticks, stored, paid, left_, by rwa [if_neg long]⟩

end Timers
end ChipEight
