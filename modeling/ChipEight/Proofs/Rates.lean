import ChipEight.Proofs.Carrying
import ChipEight.Proofs.Ticking
/-! # Timer rates

A rate is sound if it is a finite float and the length of its ticks is one, too (`Number.Sound`).
At a sound rate new timers take all times that are not too long, one after the other
(`Timers.steady_of_sound`, `Timers.Steady.account`).  At any other rate they are not even built, or
stall by the second time at the latest (`Timers.stalls_of_unsound`). -/

namespace ChipEight

namespace Number

/-- What a number stands for, if it is finite. -/
def amount? : Number → Option ℚ
  | .int i => some i
  | .float f => value? f

/-- A time of at most `T` seconds. -/
def AtMost (elapsed : Number) (T : ℚ) : Prop := ∃ t, elapsed.amount? = some t ∧ 0 ≤ t ∧ t ≤ T

/-- A rate that timers can run at: a finite float, and so is the length of a tick. -/
def Sound (rate : Number) : Prop :=
  ∃ f, rate.toFloat? = some f ∧ f.isFinite = true ∧ (1.0 / f).isFinite = true

variable {f : Float} {F T : ℚ} {elapsed rate : Number}

/-- A time is accepted, and rounding makes it at most twice as long. -/
theorem AtMost.seconds (brief : elapsed.AtMost T) (inside : T < reach) :
    elapsed.lt (.int 0) = false ∧
      ∃ e E, elapsed.toFloat? = some e ∧ value? e = some E ∧ 0 ≤ E ∧ E ≤ 2 * T := by
  obtain ⟨t, amount, nonneg, le⟩ := brief
  cases elapsed with
  | float f => exact ⟨lt_of_nonneg amount nonneg, f, t, rfl, amount, nonneg, by linarith⟩
  | int i =>
    obtain rfl : (i : ℚ) = t := Option.some.inj amount
    have whole : 0 ≤ i := by exact_mod_cast nonneg
    have accepted : (Number.int i).lt (.int 0) = false := by
      rw [int_lt_zero, decide_eq_false whole.not_gt]
    obtain ⟨e, E, stored, value, rounds⟩ := floatOfInt?_rounds i (by
      rw [abs_of_nonneg nonneg]
      linarith)
    refine ⟨accepted, e, E, stored, value, rounds.nonneg nonneg, ?_⟩
    rcases lt_or_eq_of_le whole with above | rfl
    · have one : (1 : ℚ) ≤ i := by exact_mod_cast above
      linarith [rounds.le_two_mul one]
    · rw [Int.cast_zero] at rounds le
      rw [rounds.eq_self rounds_zero]
      linarith

/-- A rate that is not refused is above zero, and as a float at most twice what it was. -/
theorem rate_value (above : rate.le (.int 0) = false) (stored : rate.toFloat? = some f)
    (value : value? f = some F) : 0 < F ∧ ∃ A, rate.amount? = some A ∧ F ≤ 2 * A := by
  cases rate with
  | float g =>
    obtain rfl := Option.some.inj stored
    have positive := pos_of_le value above
    exact ⟨positive, F, value, by linarith⟩
  | int i =>
    have rounds := rounds_of_floatOfInt? stored value
    rw [int_le_zero, decide_eq_false_iff_not, not_le] at above
    have one : (1 : ℚ) ≤ i := by exact_mod_cast above
    exact ⟨by linarith [rounds.half_le one], i, rfl, rounds.le_two_mul one⟩

theorem not_finite (h : ¬ f.isFinite = true) : f = nan ∨ ∃ negative, f = infinity negative := by
  rw [isFinite_iff] at h
  cases parts : unpack f with
  | finite negative m e => exact absurd ⟨_, by rw [value?, parts]; rfl⟩ h
  | infinite negative => exact .inr ⟨negative, eq_infinity parts⟩
  | nan => exact .inl (eq_nan parts)

end Number

namespace Timers

open Number

/-! ## Sound rates -/

variable {t : Timers} {f : Float} {F I T : ℚ} {elapsed rate : Number}

/-- Timers that can count the ticks in times of at most `T` seconds, now and later. -/
structure Steady (t : Timers) (I T : ℚ) : Prop where
  interval : value? t.interval = some I
  runs : Runs I (2 * T)
  carried : ∃ C, value? t.carried = some C ∧ Rest I (2 * T) C

/-- **Steady timers take a time, and stay steady.** -/
theorem Steady.account (steady : t.Steady I T) (brief : elapsed.AtMost T) :
    ∃ n c C, account t.carried t.interval elapsed = (c, .ok n) ∧
      value? c = some C ∧ Rest I (2 * T) C := by
  obtain ⟨interval, runs, C, carried, rest⟩ := steady
  have inside : T < reach := by linarith [runs.short, runs.nonneg, reach_large]
  obtain ⟨accepted, e, E, seconds, value, nonneg, short⟩ := brief.seconds inside
  obtain ⟨n, p, c, C', ticks, paid, left_, value', rest'⟩ :=
    pays interval runs carried rest value nonneg short
  refine ⟨n, c, C', ?_, value', rest'⟩
  unfold Timers.account
  rw [accepted, seconds]
  dsimp only
  rw [ticks]
  dsimp only
  rw [paid]
  dsimp only
  rw [left_]
  rfl

/-- Times of at most `T` seconds, and the ticks in them, stay far from the end of the range of
floats. -/
structure Moderate (rate : Number) (T : ℚ) : Prop where
  nonneg : 0 ≤ T
  time : T ≤ 2 ^ 800
  ticks : ∀ A, rate.amount? = some A → T * A ≤ 2 ^ 900

/-- At 60 ticks a second there are more ticks in the longest finite time than a float can say. -/
example : (account 0.0 (1.0 / 60.0) (.float (packBits false (2047 * leadingBit - 1)))).2.isOk =
    false := by
  decide +kernel

theorem reach_speck : 2 ^ 52 * speck * reach = 1 := by
  have shift : (2 : ℚ) ^ 52 = 2 ^ (52 : ℤ) := by norm_cast
  rw [shift, speck, reach, ← two_zpow_add, ← two_zpow_add]
  rfl

theorem pow_mul_le_reach {n m : ℕ} {x : ℚ} (le : x ≤ 2 ^ m) (sum : n + m = 1023) :
    2 ^ n * x ≤ reach := by
  have power : (2 : ℚ) ^ m = 2 ^ (1023 - n : ℤ) := by
    rw [← zpow_natCast]
    congr 1
    omega
  rw [reach_eq n, ← power]
  exact mul_le_mul_of_nonneg_left le (by positivity)

theorem runs_of_finite (value : value? f = some F) (positive : 0 < F)
    (interval : value? (1.0 / f) = some I) (nonneg : 0 ≤ T) (time : T ≤ 2 ^ 800)
    (ticks : T * F ≤ 2 ^ 1000) : Runs I (2 * T) := by
  have rounds := (div_renders value?_one value positive.ne').rounds interval
  have large := reach_large
  have least : 2 ^ 51 * speck ≤ 1 / F := by
    have below := abs_lt_of_value value
    rw [abs_of_pos positive] at below
    rw [le_div_iff₀ positive, ← reach_speck]
    have := mul_le_mul_of_nonneg_left below.le speck_pos.le
    linarith
  have close := (abs_le.mp rounds.close).1
  rw [abs_of_pos (one_div_pos.mpr positive)] at close
  have half : 1 / F ≤ 2 * I := by linarith [speck_pos]
  have time' := pow_mul_le_reach (n := 223) time rfl
  have ticks' := pow_mul_le_reach (n := 23) ticks rfl
  refine ⟨by linarith [speck_pos], by linarith, by linarith, ?_⟩
  have long : 2 ^ 23 * T ≤ reach * (1 / F) := by
    rw [mul_one_div, le_div_iff₀ positive, mul_assoc]
    exact ticks'
  have := mul_le_mul_of_nonneg_left half (by linarith : 0 ≤ reach)
  linarith

/-- **New timers at a sound rate are steady.** -/
theorem steady_of_sound (above : rate.le (.int 0) = false) (sound : rate.Sound)
    (moderate : Moderate rate T) : ∃ t I, create rate = .ok t ∧ t.Steady I T := by
  obtain ⟨f, stored, finite, short⟩ := sound
  obtain ⟨F, value⟩ := (isFinite_iff f).mp finite
  obtain ⟨I, interval⟩ := (isFinite_iff _).mp short
  obtain ⟨positive, A, amount, le⟩ := rate_value above stored value
  have ticks : T * F ≤ 2 ^ 1000 :=
    calc T * F ≤ T * (2 * A) := mul_le_mul_of_nonneg_left le moderate.nonneg
      _ = 2 * (T * A) := mul_left_comm T 2 A
      _ ≤ 2 * 2 ^ 900 := mul_le_mul_of_nonneg_left (moderate.ticks A amount) zero_le_two
      _ = 2 ^ 901 := (pow_succ' 2 900).symm
      _ ≤ 2 ^ 1000 := pow_le_pow_right₀ one_le_two (by decide)
  have runs := runs_of_finite value positive interval moderate.nonneg moderate.time ticks
  refine ⟨⟨rate, 1.0 / f, 0, 0, 0.0, false, 0⟩, I, ?_, interval, runs, 0, value?_nil,
    rest_zero runs⟩
  unfold create
  rw [above, stored]
  rfl

/-- Every rate that is not extreme is sound. -/
theorem sound_of_amount {A : ℚ} (amount : rate.amount? = some A) (low : 2 ^ (-1000 : ℤ) ≤ A)
    (high : A ≤ 2 ^ (1000 : ℤ)) : rate.Sound := by
  have least := two_zpow_pos (-1000)
  have range : 2 ^ (1000 : ℤ) < reach := by
    rw [reach]
    exact two_zpow_lt_iff.mpr (by norm_num)
  obtain ⟨f, F, stored, value, above⟩ : ∃ f F, rate.toFloat? = some f ∧ value? f = some F ∧
      2 ^ (-1000 : ℤ) ≤ F := by
    cases rate with
    | float f => exact ⟨f, A, rfl, amount, low⟩
    | int i =>
      obtain rfl : (i : ℚ) = A := Option.some.inj amount
      have positive : 0 < i := by exact_mod_cast lt_of_lt_of_le least low
      have one : (1 : ℚ) ≤ i := by exact_mod_cast positive
      obtain ⟨f, F, stored, value, rounds⟩ := floatOfInt?_rounds i (by
        rw [abs_of_nonneg (by linarith)]
        linarith)
      have half : (2 : ℚ) ^ (-1000 : ℤ) ≤ 2 ^ (-1 : ℤ) := two_zpow_le (by norm_num)
      rw [zpow_neg_one] at half
      exact ⟨f, F, stored, value, by linarith [rounds.half_le one]⟩
  have positive := lt_of_lt_of_le least above
  obtain ⟨I, interval, -⟩ := (div_renders value?_one value positive.ne').inside (by
    have tick := one_div_le_one_div_of_le least above
    rw [zpow_neg, div_inv_eq_mul, one_mul] at tick
    rw [abs_of_pos (one_div_pos.mpr positive)]
    exact lt_of_le_of_lt tick range)
  exact ⟨f, stored, (isFinite_iff f).mpr ⟨F, value⟩, (isFinite_iff _).mpr ⟨I, interval⟩⟩

/-! ## Other rates -/

/-- With ticks of this length at most one time can pass. -/
def Stalls (interval : Float) : Prop :=
  let first := account 0.0 interval (.int 0)
  first.2.isOk = false ∨ (account first.1 interval (.int 0)).2.isOk = false

instance (interval : Float) : Decidable (Stalls interval) := inferInstanceAs (Decidable (_ ∨ _))

theorem stalls_infinity : ∀ negative, Stalls (infinity negative) := by decide +kernel

theorem stalls_nan : Stalls nan := by decide +kernel

/-- The ticks of an infinite rate take no time. -/
theorem stalls_div_infinity : ∀ negative, Stalls (1.0 / infinity negative) := by decide +kernel

theorem stalls_div_nan : Stalls (1.0 / nan) := by decide +kernel

theorem stalls_of_not_finite (h : ¬ (f.isFinite = true ∧ (1.0 / f).isFinite = true)) :
    Stalls (1.0 / f) := by
  by_cases finite : f.isFinite = true
  · rcases not_finite fun short => h ⟨finite, short⟩ with nan_ | ⟨negative, infinite⟩
    · rw [nan_]
      exact stalls_nan
    · rw [infinite]
      exact stalls_infinity negative
  · rcases not_finite finite with rfl | ⟨negative, rfl⟩
    · exact stalls_div_nan
    · exact stalls_div_infinity negative

/-- **New timers at a rate that is not sound stall.** -/
theorem stalls_of_unsound (unsound : ¬ rate.Sound) (created : create rate = .ok t) :
    t.carried = 0.0 ∧ Stalls t.interval := by
  unfold create at created
  split at created
  · cases created
  cases stored : rate.toFloat? with
  | none =>
    rw [stored] at created
    cases created
  | some f =>
    rw [stored] at created
    obtain rfl := Except.ok.inj created
    exact ⟨rfl, stalls_of_not_finite fun finite => unsound ⟨f, stored, finite⟩⟩

end Timers
end ChipEight
