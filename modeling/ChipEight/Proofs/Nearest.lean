import ChipEight.Number.Basic
import ChipEight.Proofs.Arithmetic
/-! # Exact ratios and floats

`Number.nearest` rounds a ratio of integers (`Number.nearest_renders`), and `Number.unpack` gives
the exact value back.  On the way from the one to the other are the floor of a float, its integer
part, the remainder of a division, and the comparison with an integer. -/

namespace ChipEight.Number

open Float.Model Float.Model.UnpackedFloat

/-! ## The float nearest to a ratio -/

theorem roundHalfEven_eq (n : Nat) {d : Nat} (positive : 0 < d) : roundHalfEven n d =
    (ExtendedMantissa.ofMantissaAndAccuracy (n / d)
      (accuracyOfFraction (n % d) d)).roundedMantissa := by
  unfold roundHalfEven accuracyOfFraction
  dsimp only
  by_cases whole : n % d = 0
  · rw [if_pos whole, if_pos (by omega)]
    rfl
  rw [if_neg whole]
  rcases lt_trichotomy (2 * (n % d)) d with less | half | more
  · rw [Nat.compare_eq_lt.mpr less, if_pos less]
    rfl
  · rw [Nat.compare_eq_eq.mpr half, if_neg (by omega), if_neg (by omega)]
    rfl
  · rw [Nat.compare_eq_gt.mpr more, if_neg (by omega), if_pos more]
    rfl

theorem roundHalfEven_close (n : Nat) {d : Nat} (positive : 0 < d) :
    |(roundHalfEven n d : ℚ) - n / d| ≤ 1 / 2 := by
  rw [roundHalfEven_eq n positive]
  exact (cuts_fraction n positive).close

theorem scale_value (num den : Nat) (shift : ℤ) :
    ((scale num den shift).1 / (scale num den shift).2 : ℚ) = num / den * 2 ^ shift := by
  unfold scale
  split
  · rename_i up
    rw [Nat.shiftLeft_eq, Nat.cast_mul, Nat.cast_pow, Nat.cast_ofNat, ← zpow_natCast,
      Int.toNat_of_nonneg up]
    ring
  · rename_i down
    rw [Nat.shiftLeft_eq, Nat.cast_mul, Nat.cast_pow, Nat.cast_ofNat, ← zpow_natCast,
      Int.toNat_of_nonneg (by omega), zpow_neg, ← div_div, div_inv_eq_mul]

theorem scale_pos (num : Nat) {den : Nat} (shift : ℤ) (positive : 0 < den) :
    0 < (scale num den shift).2 := by
  unfold scale
  split
  · exact positive
  · rw [Nat.shiftLeft_eq]
    positivity

/-- The place of the first bit of a ratio. -/
def topPlace (num den : Nat) : ℤ :=
  let guess := (num.log2 : ℤ) - den.log2
  if (scale num den (-guess)).1 < (scale num den (-guess)).2 then guess - 1 else guess

theorem topPlace_bounds {num den : Nat} (some_ : 0 < num) (positive : 0 < den) :
    2 ^ topPlace num den ≤ (num / den : ℚ) ∧ (num / den : ℚ) < 2 ^ (topPlace num den + 1) := by
  obtain ⟨guess, guessed⟩ : ∃ guess, guess = (num.log2 : ℤ) - den.log2 := ⟨_, rfl⟩
  have unit : (0 : ℚ) < den := by exact_mod_cast positive
  have numLow : (2 : ℚ) ^ (num.log2 : ℤ) ≤ num := by
    exact_mod_cast Nat.log2_self_le some_.ne'
  have numHigh : (num : ℚ) < 2 ^ (num.log2 + 1 : ℤ) := by exact_mod_cast Nat.lt_log2_self (n := num)
  have denLow : (2 : ℚ) ^ (den.log2 : ℤ) ≤ den := by
    exact_mod_cast Nat.log2_self_le positive.ne'
  have denHigh : (den : ℚ) < 2 ^ (den.log2 + 1 : ℤ) := by exact_mod_cast Nat.lt_log2_self (n := den)
  have lower : (2 : ℚ) ^ (guess - 1) ≤ num / den := by
    rw [le_div_iff₀ unit]
    calc (2 : ℚ) ^ (guess - 1) * den ≤ 2 ^ (guess - 1) * 2 ^ (den.log2 + 1 : ℤ) :=
          mul_le_mul_of_nonneg_left denHigh.le (two_zpow_pos _).le
      _ = 2 ^ (num.log2 : ℤ) := by
          rw [← two_zpow_add]
          congr 1
          omega
      _ ≤ num := numLow
  have upper : (num / den : ℚ) < 2 ^ (guess + 1) := by
    rw [div_lt_iff₀ unit]
    calc (num : ℚ) < 2 ^ (num.log2 + 1 : ℤ) := numHigh
      _ = 2 ^ (guess + 1) * 2 ^ (den.log2 : ℤ) := by
          rw [← two_zpow_add]
          congr 1
          omega
      _ ≤ 2 ^ (guess + 1) * den := mul_le_mul_of_nonneg_left denLow (two_zpow_pos _).le
  have scaled := scale_value num den (-guess)
  have scaledUnit : (0 : ℚ) < (scale num den (-guess)).2 := by
    exact_mod_cast scale_pos num _ positive
  unfold topPlace
  dsimp only
  rw [← guessed]
  split
  · rename_i less
    refine ⟨lower, ?_⟩
    have : ((scale num den (-guess)).1 / (scale num den (-guess)).2 : ℚ) < 1 := by
      rw [div_lt_one scaledUnit]
      exact_mod_cast less
    rw [scaled, zpow_neg, ← div_eq_mul_inv, div_lt_one (two_zpow_pos _)] at this
    rwa [sub_add_cancel]
  · rename_i atLeast
    refine ⟨?_, upper⟩
    have : 1 ≤ ((scale num den (-guess)).1 / (scale num den (-guess)).2 : ℚ) := by
      rw [one_le_div scaledUnit]
      exact_mod_cast Nat.le_of_not_lt atLeast
    rwa [scaled, zpow_neg, ← div_eq_mul_inv, one_le_div (two_zpow_pos _)] at this

theorem near_ratio {num den : Nat} (some_ : 0 < num) (positive : 0 < den) {q : ℤ}
    (place : q = max (-1074) (topPlace num den - 52)) :
    Near (num / den) (roundHalfEven (scale num den (-q)).1 (scale num den (-q)).2) q := by
  obtain ⟨lower, upper⟩ := topPlace_bounds some_ positive
  have unit := two_zpow_pos q
  refine ⟨by positivity, by omega, ?_, ?_, ?_⟩
  · rcases le_or_gt q (-1074) with low | high
    · exact .inl (by omega)
    · right
      rwa [show q + 52 = topPlace num den by omega]
  · exact lt_of_lt_of_le upper (two_zpow_le (by omega))
  · have close := roundHalfEven_close (scale num den (-q)).1 (scale_pos num (-q) positive)
    rw [scale_value, zpow_neg, ← div_eq_mul_inv] at close
    have split_ : (num / den : ℚ) = num / den / 2 ^ q * 2 ^ q := (div_mul_cancel₀ _ unit.ne').symm
    rw [split_, ← sub_mul, abs_mul, abs_of_pos unit]
    nlinarith

/-- The float with a mantissa and a last place, unless the place is beyond the range. -/
def store? (negative : Bool) (parts : Nat × ℤ) : Option Float :=
  if 971 < parts.2 then none
  else if parts.1 < leadingBit then some (packBits negative parts.1)
  else some (packBits negative ((parts.2 + 1075).toNat * leadingBit + (parts.1 - leadingBit)))

theorem store?_canonical (negative : Bool) {m : Nat} {e : ℤ} (canonical : Canonical m e) :
    ∃ f, store? negative (m, e) = some f ∧ unpack f = .finite negative m e := by
  obtain ⟨fits, low, high, normal⟩ := canonical
  have lead : leadingBit = 2 ^ 52 := rfl
  unfold store?
  rw [if_neg (by omega)]
  split
  · rename_i small
    refine ⟨_, rfl, ?_⟩
    rw [unpack_packBits negative (by omega), Nat.div_eq_of_lt small, Nat.mod_eq_of_lt small]
    obtain rfl : e = -1074 := normal.resolve_left (by omega)
    rfl
  · rename_i full
    refine ⟨_, rfl, ?_⟩
    rw [unpack_packBits negative (by rw [lead]; omega)]
    have biased : ((e + 1075).toNat * 2 ^ 52 + (m - 2 ^ 52)) / 2 ^ 52 = (e + 1075).toNat := by
      omega
    have fraction : ((e + 1075).toNat * 2 ^ 52 + (m - 2 ^ 52)) % 2 ^ 52 = m - 2 ^ 52 := by omega
    unfold compose
    rw [lead, biased, fraction, if_neg (by simp; omega), if_neg (by simp; omega),
      Nat.sub_add_cancel (by omega), show ((e + 1075).toNat : ℤ) - 1075 = e by omega]

theorem nearest_eq (negative : Bool) {num den : Nat} (some_ : 0 < num) (positive : 0 < den) :
    nearest negative num den =
      let q := max (-1074) (topPlace num den - 52)
      store? negative (carry (roundHalfEven (scale num den (-q)).1 (scale num den (-q)).2) q) := by
  unfold nearest
  rw [if_neg (by simp; omega)]
  rfl

/-- **The nearest float is the ratio, rounded**, unless that is beyond the range. -/
theorem nearest_renders (negative : Bool) (num : Nat) {den : Nat} (positive : 0 < den) :
    (∃ f v, nearest negative num den = some f ∧ value? f = some v ∧
      Rounds (signed negative (num / den)) v) ∨
    nearest negative num den = none ∧ reach ≤ num / den := by
  rcases Nat.eq_zero_or_pos num with rfl | some_
  · refine .inl ⟨packBits negative 0, 0, rfl, ?_, by simpa using rounds_zero⟩
    rw [value?, unpack_packBits negative (by norm_num)]
    simp [compose, Unpacked.value?]
  · rw [nearest_eq negative some_ positive]
    have near := near_ratio some_ positive rfl
    have rounds := near.rounds.signed negative
    rw [← carry_value] at rounds
    rcases near.carry with canonical | ⟨beyond, large⟩
    · obtain ⟨f, stored, parts⟩ := store?_canonical negative canonical
      exact .inl ⟨f, _, stored, by rw [value?, parts]; rfl, _, rounds⟩
    · exact .inr ⟨if_pos beyond, large⟩

theorem nearest_inside (negative : Bool) (num : Nat) {den : Nat} (positive : 0 < den)
    (inside : (num / den : ℚ) < reach) : ∃ f v, nearest negative num den = some f ∧
      value? f = some v ∧ Rounds (signed negative (num / den)) v :=
  (nearest_renders negative num positive).resolve_right fun beyond =>
    absurd inside (not_lt.mpr beyond.2)

/-! ## Whole numbers -/

variable {f g : Float} {v w : ℚ}

theorem signed_natCast (negative : Bool) (n : Nat) :
    signed negative n = ((if negative then -(n : ℤ) else n : ℤ) : ℚ) := by
  cases negative <;> simp [signed]

theorem signed_sub (negative : Bool) (x y : ℚ) :
    signed negative x - signed negative y = signed negative (x - y) := by
  cases negative
  · rfl
  · simp only [signed, if_true]
    ring

theorem natCast_lt_reach {n : Nat} (small : n ≤ 2 ^ 53) : (n : ℚ) < reach := by
  have bound : (n : ℚ) ≤ 2 ^ (53 : ℤ) := by exact_mod_cast small
  rw [reach]
  exact lt_of_le_of_lt bound (two_zpow_lt_iff.mpr (by norm_num))

theorem whole_bounds (negative : Bool) (m n : ℕ) :
    let whole := if negative = true then (m + 2 ^ n - 1) / 2 ^ n else m / 2 ^ n
    m < (whole + 1) * 2 ^ n ∧ whole * 2 ^ n < m + 2 ^ n := by
  intro whole
  have unit : 0 < 2 ^ n := Nat.two_pow_pos n
  have low := Nat.div_mul_le_self (m + 2 ^ n - 1) (2 ^ n)
  have high := Nat.lt_div_mul_add (a := m + 2 ^ n - 1) unit
  have low' := Nat.div_mul_le_self m (2 ^ n)
  have high' := Nat.lt_div_mul_add (a := m) unit
  dsimp only [whole]
  rw [add_mul]
  split <;> omega

theorem whole_close {whole m n : ℕ} (above : m < (whole + 1) * 2 ^ n)
    (below : whole * 2 ^ n < m + 2 ^ n) : |(whole : ℚ) - m * 2 ^ (-n : ℤ)| ≤ 1 := by
  have unit : (0 : ℚ) < 2 ^ n := by positivity
  have less : (m / 2 ^ n : ℚ) ≤ whole + 1 := by
    rw [div_le_iff₀ unit]
    exact_mod_cast above.le
  have more : (whole - 1 : ℚ) ≤ m / 2 ^ n := by
    rw [le_div_iff₀ unit, sub_mul, one_mul, sub_le_iff_le_add]
    exact_mod_cast below.le
  rw [zpow_neg, zpow_natCast, ← div_eq_mul_inv, abs_le]
  constructor <;> linarith

theorem whole_le {whole m n : ℕ} (fits : m < 2 ^ 53) (below : whole * 2 ^ n < m + 2 ^ n) :
    whole ≤ 2 ^ 53 := by
  have : whole * 2 ^ n < (2 ^ 53 + 1) * 2 ^ n := by
    rw [add_mul]
    have := Nat.le_mul_of_pos_right (2 ^ 53) (Nat.two_pow_pos n)
    omega
  exact Nat.lt_succ_iff.mp (Nat.lt_of_mul_lt_mul_right this)

/-- The floor of a float is at most one below it, but for rounding. -/
theorem floor_close (h : value? f = some v) : ∃ w, value? (floor f) = some w ∧
    |w - v| ≤ 1 + ((|v| + 1) / 2 ^ 53 + speck) := by
  obtain ⟨negative, m, e, parts, rfl, canonical⟩ := unpack_of_value h
  unfold floor
  rw [parts]
  dsimp only
  split
  · have := speck_pos
    refine ⟨_, h, ?_⟩
    rw [sub_self, abs_zero]
    positivity
  obtain ⟨n, rfl⟩ : ∃ n : ℕ, e = -n := ⟨(-e).toNat, by omega⟩
  rw [show (- -(n : ℤ)).toNat = n by omega, Nat.one_shiftLeft]
  obtain ⟨above, below⟩ := whole_bounds negative m n
  generalize (if negative = true then (m + 2 ^ n - 1) / 2 ^ n else m / 2 ^ n) = whole at *
  have close := whole_close above below
  obtain ⟨g, w, stored, value, rounds⟩ := nearest_inside negative whole one_pos (by
    rw [Nat.cast_one, div_one]
    exact natCast_lt_reach (whole_le canonical.fits below))
  rw [stored]
  refine ⟨w, value, ?_⟩
  rw [Nat.cast_one, div_one] at rounds
  have rounded := rounds.close
  rw [abs_signed, Nat.abs_cast] at rounded
  have cut : |signed negative whole - signed negative (m * 2 ^ (-n : ℤ))| ≤ 1 := by
    rwa [signed_sub, abs_signed]
  have bound : (whole : ℚ) ≤ |signed negative (m * 2 ^ (-n : ℤ))| + 1 := by
    rw [abs_signed, abs_of_nonneg (scaled_nonneg m (-n))]
    linarith [(abs_le.mp close).2]
  have scaled := div_le_div_of_nonneg_right bound (by norm_num : (0 : ℚ) ≤ 2 ^ 53)
  have far := abs_sub_le w (signed negative whole) (signed negative (m * 2 ^ (-n : ℤ)))
  linarith

theorem truncate?_close (h : value? f = some v) : ∃ n : ℤ, truncate? f = some n ∧ |n - v| < 1 := by
  obtain ⟨negative, m, e, parts, rfl, canonical⟩ := unpack_of_value h
  unfold truncate?
  rw [parts]
  refine ⟨_, rfl, ?_⟩
  rw [← signed_natCast, signed_sub, abs_signed]
  split
  · rename_i whole
    have value := shiftLeft_value m whole
    rw [sub_zero, zpow_zero, mul_one] at value
    rw [value, sub_self, abs_zero]
    exact one_pos
  · rename_i broken
    obtain ⟨n, rfl⟩ : ∃ n : ℕ, e = -n := ⟨(-e).toNat, by omega⟩
    rw [show (- -(n : ℤ)).toNat = n by omega, Nat.shiftRight_eq_div_pow, zpow_neg, zpow_natCast,
      ← div_eq_mul_inv]
    have unit : 0 < 2 ^ n := Nat.two_pow_pos n
    have unit' : (0 : ℚ) < 2 ^ n := by exact_mod_cast unit
    have less : ((m / 2 ^ n : ℕ) : ℚ) ≤ m / 2 ^ n := by
      rw [le_div_iff₀ unit']
      exact_mod_cast Nat.div_mul_le_self m (2 ^ n)
    have more : (m / 2 ^ n : ℚ) < (m / 2 ^ n : ℕ) + 1 := by
      rw [div_lt_iff₀ unit', add_mul, one_mul]
      exact_mod_cast Nat.lt_div_mul_add (a := m) unit
    rw [abs_lt]
    constructor <;> linarith

theorem signed_natAbs (n : ℤ) : signed (decide (n < 0)) n.natAbs = n := by
  rw [signed_natCast]
  split
  · rename_i negative
    rw [Int.ofNat_natAbs_of_nonpos (of_decide_eq_true negative).le, neg_neg]
  · rename_i nonneg
    rw [Int.natAbs_of_nonneg (not_lt.mp fun negative => nonneg (decide_eq_true negative))]

/-- An integer is stored as the float nearest to it, unless it is beyond the range. -/
theorem floatOfInt?_renders (n : ℤ) :
    (∃ p w, floatOfInt? n = some p ∧ value? p = some w ∧ Rounds n w) ∨
      floatOfInt? n = none ∧ reach ≤ |(n : ℚ)| := by
  have rendered := nearest_renders (decide (n < 0)) n.natAbs one_pos
  rwa [Nat.cast_one, div_one, signed_natAbs, Nat.cast_natAbs, Int.cast_abs] at rendered

theorem floatOfInt?_rounds (n : ℤ) (inside : |(n : ℚ)| < reach) :
    ∃ p w, floatOfInt? n = some p ∧ value? p = some w ∧ Rounds n w :=
  (floatOfInt?_renders n).resolve_right fun beyond => absurd inside (not_lt.mpr beyond.2)

theorem rounds_of_floatOfInt? {n : ℤ} (stored : floatOfInt? n = some f)
    (value : value? f = some v) : Rounds n v := by
  rcases floatOfInt?_renders n with ⟨p, w, stored', value', rounds⟩ | ⟨none_, -⟩
  · rw [stored] at stored'
    cases stored'
    rw [value] at value'
    exact Option.some.inj value' ▸ rounds
  · rw [none_] at stored
    cases stored

/-! ## Remainders -/

/-- What a remainder is before it is stored: smaller than the divisor, and the dividend itself if
that is. -/
theorem remainder_renders (left : value? f = some v) (right : value? g = some w) (nonzero : w ≠ 0)
    (inside : |v| < reach) : ∃ negative r m, value? (remainder f g) = some m ∧
      Rounds (signed negative r) m ∧ 0 ≤ r ∧ r < |w| ∧ (|v| < |w| → signed negative r = v) := by
  obtain ⟨negative, m, e, parts, rfl, canonical⟩ := unpack_of_value left
  obtain ⟨negative', m', e', parts', rfl, canonical'⟩ := unpack_of_value right
  have divisor : 0 < m' := by
    rcases Nat.eq_zero_or_pos m' with rfl | positive
    · simp at nonzero
    · exact positive
  obtain ⟨low, least⟩ : ∃ low, low = min e e' := ⟨_, rfl⟩
  have unit := two_zpow_pos low
  have dividend := (shiftLeft_value m (by omega : low ≤ e)).symm
  have divisor_ := (shiftLeft_value m' (by omega : low ≤ e')).symm
  rw [abs_signed, abs_of_nonneg (scaled_nonneg m e), dividend] at inside
  rw [abs_signed, abs_signed, abs_of_nonneg (scaled_nonneg m e),
    abs_of_nonneg (scaled_nonneg m' e'), dividend, divisor_]
  unfold remainder
  rw [parts, parts']
  dsimp only
  rw [if_neg (by simpa using divisor.ne'), ← least]
  generalize m <<< (e - low).toNat = a at *
  have positive : 0 < m' <<< (e' - low).toNat := Nat.shiftLeft_pos_iff.mpr divisor
  generalize m' <<< (e' - low).toNat = b at *
  have less : ((a % b : ℕ) : ℚ) * 2 ^ low < b * 2 ^ low :=
    mul_lt_mul_of_pos_right (by exact_mod_cast Nat.mod_lt a positive) unit
  have within : ((a % b : ℕ) : ℚ) * 2 ^ low ≤ a * 2 ^ low :=
    mul_le_mul_of_nonneg_right (by exact_mod_cast Nat.mod_le a b) unit.le
  have scaled := scale_value (a % b) 1 low
  rw [Nat.cast_one, div_one] at scaled
  obtain ⟨f, r, stored, value, rounds⟩ := nearest_inside negative (scale (a % b) 1 low).1
    (scale_pos (a % b) low one_pos) (by rw [scaled]; linarith)
  rw [stored]
  rw [scaled] at rounds
  refine ⟨negative, _, r, value, rounds, scaled_nonneg _ _, less, fun small => ?_⟩
  have : a < b := by exact_mod_cast lt_of_mul_lt_mul_right small unit.le
  rw [Nat.mod_eq_of_lt this]

/-! ## Comparison with an integer -/

/-- A finite float has the sign of the integer that it is compared as. -/
theorem compare_zero (h : value? f = some v) : ∃ z d : ℤ,
    compareIntFloat 0 f = some (compare 0 z) ∧ 0 < d ∧ v * d = z := by
  obtain ⟨negative, m, e, parts, rfl, -⟩ := unpack_of_value h
  have value := scale_value m 1 e
  have positive := scale_pos m e one_pos
  rw [Nat.cast_one, div_one] at value
  refine ⟨if negative then -((scale m 1 e).1 : ℤ) else (scale m 1 e).1, (scale m 1 e).2, ?_,
    by exact_mod_cast positive, ?_⟩
  · unfold compareIntFloat
    rw [parts]
    dsimp only
    rw [zero_mul]
  · rw [← signed_natCast, ← value]
    have unit : ((scale m 1 e).2 : ℚ) ≠ 0 := by exact_mod_cast positive.ne'
    cases negative
    · exact div_mul_cancel₀ _ unit
    · change -_ * _ = -_
      rw [neg_mul]
      exact congrArg _ (div_mul_cancel₀ _ unit)

theorem lt_of_nonneg (h : value? f = some v) (nonneg : 0 ≤ v) :
    (Number.float f).lt (.int 0) = false := by
  obtain ⟨z, d, compared, positive, value⟩ := compare_zero h
  have : 0 ≤ z := by
    have : (0 : ℚ) ≤ z := value ▸ mul_nonneg nonneg (by exact_mod_cast positive.le)
    exact_mod_cast this
  change ((compareIntFloat 0 f).map Ordering.swap == some .lt) = false
  rw [compared]
  rcases lt_or_eq_of_le this with above | rfl
  · rw [Int.compare_eq_lt.mpr above]
    rfl
  · rfl

theorem pos_of_le (h : value? f = some v) (above : (Number.float f).le (.int 0) = false) :
    0 < v := by
  obtain ⟨z, d, compared, positive, value⟩ := compare_zero h
  have positive : (0 : ℚ) < d := by exact_mod_cast positive
  change ((compareIntFloat 0 f).map Ordering.swap == some .lt ||
    (compareIntFloat 0 f).map Ordering.swap == some .eq) = false at above
  rw [compared] at above
  by_contra low
  have : (z : ℚ) ≤ 0 := value ▸ mul_nonpos_of_nonpos_of_nonneg (not_lt.mp low) positive.le
  rcases lt_or_eq_of_le (by exact_mod_cast this : z ≤ 0) with below | rfl
  · rw [Int.compare_eq_gt.mpr below] at above
    cases above
  · cases above

theorem int_lt_zero (i : ℤ) : (Number.int i).lt (.int 0) = decide (i < 0) := by
  change (some (compare i 0) == some .lt) = _
  rcases lt_trichotomy i 0 with less | rfl | more
  · rw [Int.compare_eq_lt.mpr less, decide_eq_true less]
    rfl
  · rfl
  · rw [Int.compare_eq_gt.mpr more, decide_eq_false more.le.not_gt]
    rfl

theorem int_le_zero (i : ℤ) : (Number.int i).le (.int 0) = decide (i ≤ 0) := by
  change (some (compare i 0) == some .lt || some (compare i 0) == some .eq) = _
  rcases lt_trichotomy i 0 with less | rfl | more
  · rw [Int.compare_eq_lt.mpr less, decide_eq_true less.le]
    rfl
  · rfl
  · rw [Int.compare_eq_gt.mpr more, decide_eq_false more.not_ge]
    rfl

end ChipEight.Number
