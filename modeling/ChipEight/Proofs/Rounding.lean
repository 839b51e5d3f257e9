import ChipEight.Proofs.FloatParts
import Mathlib.Algebra.Order.Field.Power
import Mathlib.Data.Rat.Cast.Order
import Mathlib.Tactic.FieldSimp
import Mathlib.Tactic.Linarith
import Mathlib.Tactic.NormNum
import Mathlib.Tactic.Positivity
import Mathlib.Tactic.Ring
/-! # Rounding

Floats as rational numbers.  A number is rounded to the nearest multiple of the last place that is
stored of it (`Number.RoundsAt`), if it is not beyond the range.  That is what `roundWithAccuracy`
does with a mantissa and what is known of the bits behind it (`Number.roundWithAccuracy_renders`).
How far rounding moves a number at most is said by `Number.Rounds.close`. -/

namespace ChipEight.Number

open Float.Model Float.Model.UnpackedFloat

/-! ## Values -/

/-- A magnitude with a sign. -/
def signed (negative : Bool) (x : ℚ) : ℚ := if negative then -x else x

@[simp] theorem abs_signed (negative : Bool) (x : ℚ) : |signed negative x| = |x| := by
  cases negative <;> simp [signed]

@[simp] theorem signed_zero (negative : Bool) : signed negative 0 = 0 := by
  cases negative <;> simp [signed]

/-- What a float stands for, if it is finite. -/
def Unpacked.value? : Unpacked → Option ℚ
  | .finite negative mantissa exponent => some (signed negative (mantissa * 2 ^ exponent))
  | _ => none

def value? (f : Float) : Option ℚ := (unpack f).value?

theorem two_zpow_pos (e : ℤ) : (0 : ℚ) < 2 ^ e := zpow_pos two_pos e

theorem two_zpow_le {a b : ℤ} (h : a ≤ b) : (2 : ℚ) ^ a ≤ 2 ^ b :=
  zpow_le_zpow_right₀ one_le_two h

theorem two_zpow_lt_iff {a b : ℤ} : (2 : ℚ) ^ a < 2 ^ b ↔ a < b :=
  zpow_lt_zpow_iff_right₀ one_lt_two

theorem two_zpow_add (a b : ℤ) : (2 : ℚ) ^ (a + b) = 2 ^ a * 2 ^ b := zpow_add₀ two_ne_zero a b

theorem scaled_nonneg (m : ℕ) (e : ℤ) : (0 : ℚ) ≤ m * 2 ^ e :=
  mul_nonneg (Nat.cast_nonneg m) (two_zpow_pos e).le

/-! ## What rounding is -/

/-- To go from `r` to `v` is to go to the nearest multiple of the last place of `r`, which is worth
`2 ^ q`. -/
structure RoundsAt (q : ℤ) (r v : ℚ) : Prop where
  low : -1074 ≤ q
  normal : q = -1074 ∨ 2 ^ (q + 52) ≤ |r|
  below : |r| < 2 ^ (q + 53)
  whole : ∃ k : ℤ, v = k * 2 ^ q
  close : |v - r| ≤ 2 ^ q / 2

def Rounds (r v : ℚ) : Prop := ∃ q, RoundsAt q r v

/-- Below this every magnitude is within the range of the floats. -/
@[irreducible] def reach : ℚ := 2 ^ (1023 : ℤ)

/-- A float is the one that a number is rounded to, or the number is beyond the range. -/
def Renders (r : ℚ) (f : Float) : Prop :=
  (∃ v, value? f = some v ∧ Rounds r v) ∨ value? f = none ∧ reach ≤ |r|

theorem RoundsAt.signed {q : ℤ} {r v : ℚ} (h : RoundsAt q r v) (negative : Bool) :
    RoundsAt q (signed negative r) (signed negative v) := by
  obtain ⟨low, normal, below, ⟨k, rfl⟩, close⟩ := h
  refine ⟨low, by rwa [abs_signed], by rwa [abs_signed], ?_, ?_⟩
  · cases negative with
    | false => exact ⟨k, rfl⟩
    | true => exact ⟨-k, by simp [Number.signed]⟩
  · cases negative with
    | false => exact close
    | true =>
      rw [Number.signed, Number.signed, if_pos rfl, if_pos rfl, neg_sub_neg, abs_sub_comm]
      exact close

theorem rounds_zero : Rounds 0 0 :=
  ⟨-1074, le_rfl, .inl rfl, by norm_num, ⟨0, by simp⟩,
    by simpa using (half_pos (two_zpow_pos (-1074))).le⟩

variable {r v : ℚ} {f : Float}

theorem Renders.inside (h : Renders r f) (inside : |r| < reach) :
    ∃ v, value? f = some v ∧ Rounds r v := by
  rcases h with rendered | ⟨-, beyond⟩
  · exact rendered
  · exact absurd inside (not_lt.mpr beyond)

theorem Renders.rounds (h : Renders r f) (value : value? f = some v) : Rounds r v := by
  rcases h with ⟨w, value', rounds⟩ | ⟨none_, -⟩
  · rw [value] at value'
    exact Option.some.inj value' ▸ rounds
  · rw [value] at none_
    cases none_

/-! ## How far rounding goes -/

/-- Half of the least positive float. -/
@[irreducible] def speck : ℚ := 2 ^ (-1075 : ℤ)

theorem speck_pos : 0 < speck := by
  rw [speck]
  exact two_zpow_pos _

theorem Rounds.close (h : Rounds r v) : |v - r| ≤ |r| / 2 ^ 53 + speck := by
  obtain ⟨q, low, normal, below, whole, close⟩ := h
  have half : (2 : ℚ) ^ q / 2 = 2 ^ (q - 1) := by rw [zpow_sub_one₀ two_ne_zero, div_eq_mul_inv]
  have size := div_nonneg (abs_nonneg r) (by norm_num : (0 : ℚ) ≤ 2 ^ 53)
  rcases normal with rfl | normal
  · rw [half] at close
    rw [speck]
    exact le_trans close (le_add_of_nonneg_left size)
  · rw [two_zpow_add] at normal
    have := speck_pos
    norm_num at normal ⊢
    linarith

/-- What needs no rounding stays as it is. -/
theorem Rounds.eq_self (h : Rounds r v) (self : Rounds r r) : v = r := by
  obtain ⟨q, low, normal, below, ⟨k, whole⟩, close⟩ := h
  obtain ⟨q', low', -, below', ⟨k', whole'⟩, -⟩ := self
  have le : q ≤ q' := by
    rcases normal with rfl | normal
    · exact low'
    · have := two_zpow_lt_iff.mp (lt_of_le_of_lt normal below')
      omega
  obtain ⟨n, rfl⟩ : ∃ n : ℕ, q' = q + n := ⟨(q' - q).toNat, by omega⟩
  have unit := two_zpow_pos q
  have multiple : r = (k' * 2 ^ n : ℤ) * 2 ^ q := by
    rw [whole', two_zpow_add, zpow_natCast]
    push_cast
    ring
  rw [whole, multiple, ← sub_mul, abs_mul, abs_of_pos unit, div_eq_inv_mul] at close
  have near := le_of_mul_le_mul_right close unit
  rw [← Int.cast_sub, ← Int.cast_abs] at near
  have none_ : |k - k' * 2 ^ n| < 1 := by
    have : ((|k - k' * 2 ^ n| : ℤ) : ℚ) < 1 := lt_of_le_of_lt near (by norm_num)
    exact_mod_cast this
  rw [whole, multiple, sub_eq_zero.mp (Int.abs_lt_one_iff.mp none_)]

theorem Renders.exact (h : Renders r f) (inside : |r| < reach) (self : Rounds r r) :
    value? f = some r := by
  obtain ⟨v, value, rounds⟩ := h.inside inside
  rw [value, rounds.eq_self self]

/-- What is above a power of two by less than half a place is not rounded up. -/
theorem Rounds.le_two_zpow {a : ℤ} (h : Rounds r v) (nonneg : 0 ≤ r) (low : -1074 ≤ a)
    (below : r < 2 ^ a + 2 ^ (a - 53)) : v ≤ 2 ^ a := by
  obtain ⟨q, -, normal, less, ⟨k, rfl⟩, close⟩ := h
  rw [abs_of_nonneg nonneg] at normal less
  have unit := two_zpow_pos q
  have half : (2 : ℚ) ^ (a - 53) ≤ 2 ^ a := two_zpow_le (by omega)
  have place : q ≤ a := by
    rcases normal with rfl | normal
    · exact low
    · have double : (2 : ℚ) ^ (a + 1) = 2 ^ a + 2 ^ a := by rw [two_zpow_add, zpow_one, mul_two]
      have : q + 52 < a + 1 := two_zpow_lt_iff.mp (by linarith)
      omega
  obtain ⟨n, rfl⟩ : ∃ n : ℕ, a = n + q := ⟨(a - q).toNat, by omega⟩
  by_contra above
  rw [not_le, two_zpow_add, zpow_natCast] at above
  have more : 2 ^ n + 1 ≤ k := by exact_mod_cast lt_of_mul_lt_mul_right above unit.le
  have far : ((2 : ℚ) ^ n + 1) * 2 ^ q ≤ k * 2 ^ q :=
    mul_le_mul_of_nonneg_right (by exact_mod_cast more) unit.le
  have close := (abs_le.mp close).2
  rw [two_zpow_add (n : ℤ) q, zpow_natCast] at below half
  have reach : n + q < q + 53 := two_zpow_lt_iff.mp (by
    rw [two_zpow_add (n : ℤ) q, zpow_natCast]
    linarith)
  have : (2 : ℚ) ^ (n + q - 53) ≤ 2 ^ (q - 1) := two_zpow_le (by omega)
  rw [zpow_sub_one₀ two_ne_zero] at this
  linarith

theorem Rounds.nonneg (h : Rounds r v) (nonneg : 0 ≤ r) : 0 ≤ v := by
  obtain ⟨q, -, -, -, ⟨k, rfl⟩, close⟩ := h
  have unit := two_zpow_pos q
  have low := (abs_le.mp close).1
  have : (-1 : ℚ) * 2 ^ q < k * 2 ^ q := by linarith
  have above : -1 < k := by exact_mod_cast lt_of_mul_lt_mul_right this unit.le
  exact mul_nonneg (by exact_mod_cast (by omega : 0 ≤ k)) unit.le

/-! ## The nearest mantissa -/

/-- A mantissa of the last place `2 ^ q` that is nearest to a magnitude. -/
structure Near (r : ℚ) (mantissa : Nat) (q : ℤ) : Prop where
  nonneg : 0 ≤ r
  low : -1074 ≤ q
  normal : q = -1074 ∨ 2 ^ (q + 52) ≤ r
  below : r < 2 ^ (q + 53)
  close : |mantissa * 2 ^ q - r| ≤ 2 ^ q / 2

/-- A mantissa that has grown by one bit moves by one place. -/
def carry (mantissa : Nat) (q : ℤ) : Nat × ℤ :=
  if mantissa == 2 * leadingBit then (leadingBit, q + 1) else (mantissa, q)

theorem carry_grown (q : ℤ) : carry (2 ^ 53) q = (2 ^ 52, q + 1) := rfl

theorem carry_small {mantissa : Nat} (q : ℤ) (small : mantissa ≠ 2 ^ 53) :
    carry mantissa q = (mantissa, q) := by
  have lead : 2 * leadingBit = 2 ^ 53 := rfl
  unfold carry
  rw [lead, if_neg (by simpa using small)]

theorem carry_value (mantissa : Nat) (q : ℤ) :
    ((carry mantissa q).1 : ℚ) * 2 ^ (carry mantissa q).2 = mantissa * 2 ^ q := by
  by_cases grown : mantissa = 2 ^ 53
  · rw [grown, carry_grown, two_zpow_add]
    push_cast
    ring
  · rw [carry_small q grown]

variable {mantissa : Nat} {q : ℤ}

theorem Near.rounds (h : Near r mantissa q) : RoundsAt q r (mantissa * 2 ^ q) :=
  ⟨h.low, by rw [abs_of_nonneg h.nonneg]; exact h.normal,
    by rw [abs_of_nonneg h.nonneg]; exact h.below, ⟨mantissa, rfl⟩, h.close⟩

theorem Near.le (h : Near r mantissa q) : mantissa ≤ 2 ^ 53 := by
  have unit := two_zpow_pos q
  have below := h.below
  rw [two_zpow_add] at below
  have close := (abs_le.mp h.close).2
  have bound : (mantissa : ℚ) * 2 ^ q < (2 ^ 53 + 1) * 2 ^ q := by
    norm_num at below ⊢
    linarith
  have := lt_of_mul_lt_mul_right bound unit.le
  exact_mod_cast Nat.lt_succ_iff.mp (by exact_mod_cast this)

theorem Near.ge (h : Near r mantissa q) : q = -1074 ∨ 2 ^ 52 ≤ mantissa := by
  refine h.normal.imp_right fun normal => ?_
  have unit := two_zpow_pos q
  rw [two_zpow_add] at normal
  have close := (abs_le.mp h.close).1
  have bound : (2 ^ 52 : ℚ) * 2 ^ q < (mantissa + 1) * 2 ^ q := by
    norm_num at normal ⊢
    linarith
  have := lt_of_mul_lt_mul_right bound unit.le
  exact Nat.lt_succ_iff.mp (by exact_mod_cast this)

/-- The mantissa that results can be stored, or the magnitude is beyond the range. -/
theorem Near.carry (h : Near r mantissa q) :
    Canonical (carry mantissa q).1 (carry mantissa q).2 ∨
      971 < (carry mantissa q).2 ∧ reach ≤ r := by
  have le := h.le
  have low := h.low
  have large (wide : 971 ≤ q) : reach ≤ r := by
    rw [reach]
    refine le_trans ?_ (h.normal.resolve_left (by omega))
    exact two_zpow_le (by omega : 1023 ≤ q + 52)
  by_cases grown : mantissa = 2 ^ 53
  · rw [grown, carry_grown]
    rcases le_or_gt (q + 1) 971 with high | beyond
    · exact .inl ⟨by norm_num, by omega, high, .inl le_rfl⟩
    · exact .inr ⟨beyond, large (by omega)⟩
  · rw [carry_small q grown]
    rcases le_or_gt q 971 with high | beyond
    · exact .inl ⟨by omega, low, high, h.ge.symm⟩
    · exact .inr ⟨beyond, large (by omega)⟩

/-! ## Bits that are dropped -/

/-- What the two bits behind a mantissa say of the number that it was cut from. -/
def Cuts (em : ExtendedMantissa) (x : ℚ) : Prop :=
  match em.roundBit, em.stickyBit with
  | false, false => x = em.mantissa
  | false, true => em.mantissa < x ∧ x < em.mantissa + 1 / 2
  | true, false => x = em.mantissa + 1 / 2
  | true, true => em.mantissa + 1 / 2 < x ∧ x < em.mantissa + 1

variable {em : ExtendedMantissa} {x : ℚ}

theorem Cuts.bounds (h : Cuts em x) : em.mantissa ≤ x ∧ x < em.mantissa + 1 := by
  obtain ⟨m, round, sticky⟩ := em
  cases round <;> cases sticky <;> simp only [Cuts] at h <;> constructor <;> linarith

theorem Cuts.shiftRightOne (h : Cuts em x) : Cuts em.shiftRightOne (x / 2) := by
  obtain ⟨m, round, sticky⟩ := em
  have halves : ((m % 2 : ℕ) : ℚ) + 2 * ((m / 2 : ℕ) : ℚ) = m := by
    exact_mod_cast Nat.mod_add_div m 2
  rcases Nat.mod_two_eq_zero_or_one m with even | odd
  · have shifted : ExtendedMantissa.shiftRightOne ⟨m, round, sticky⟩ =
        ⟨m / 2, false, round || sticky⟩ := by simp [ExtendedMantissa.shiftRightOne, even]
    rw [shifted]
    rw [even] at halves
    cases round <;> cases sticky <;>
      simp only [Cuts, Bool.or_self, Bool.or_true, Bool.or_false] at h ⊢ <;>
      norm_num at halves ⊢ <;> (try constructor) <;> linarith
  · have shifted : ExtendedMantissa.shiftRightOne ⟨m, round, sticky⟩ =
        ⟨m / 2, true, round || sticky⟩ := by simp [ExtendedMantissa.shiftRightOne, odd]
    rw [shifted]
    rw [odd] at halves
    cases round <;> cases sticky <;>
      simp only [Cuts, Bool.or_self, Bool.or_true, Bool.or_false] at h ⊢ <;>
      norm_num at halves ⊢ <;> (try constructor) <;> linarith

theorem Cuts.shiftRight (h : Cuts em x) (n : Nat) : Cuts (em >>> n) (x / 2 ^ n) := by
  change Cuts (n.repeat ExtendedMantissa.shiftRightOne em) _
  induction n with
  | zero => simpa [Nat.repeat] using h
  | succ n ih =>
    rw [Nat.repeat, pow_succ, ← div_div]
    exact ih.shiftRightOne

theorem Cuts.close (h : Cuts em x) : |em.roundedMantissa - x| ≤ 1 / 2 := by
  obtain ⟨m, round, sticky⟩ := em
  rw [abs_le]
  cases round <;> cases sticky <;>
    simp only [Cuts, ExtendedMantissa.roundedMantissa, ExtendedMantissa.accuracy,
      Accuracy.roundToNearestEven] at h ⊢
  · constructor <;> linarith
  · constructor <;> linarith
  · rcases Nat.mod_two_eq_zero_or_one m with even | odd
    · rw [even]
      push_cast
      constructor <;> linarith
    · rw [odd]
      push_cast
      constructor <;> linarith
  · push_cast
    constructor <;> linarith

theorem log2_bounds (m : Nat) (x : ℚ) (lower : m ≤ x) (upper : x < m + 1) :
    (m = 0 ∨ 2 ^ m.log2 ≤ x) ∧ x < 2 ^ (m.log2 + 1) := by
  constructor
  · rcases Nat.eq_zero_or_pos m with zero | positive
    · exact .inl zero
    · exact .inr (le_trans (by exact_mod_cast Nat.log2_self_le positive.ne') lower)
  · exact lt_of_lt_of_le upper (by exact_mod_cast Nat.lt_log2_self (n := m))

theorem targetExponent_eq (place : ℤ) :
    Format.binary64.targetExponent place = max (place - 53) (-1074) := rfl

theorem targetExponent_total (m : Nat) (e : ℤ) :
    Format.binary64.targetExponent (totalExponent m e) = max (m.log2 + e - 52) (-1074) := by
  rw [targetExponent_eq]
  unfold totalExponent
  omega

theorem shift_eq {m : Nat} {e : ℤ} (acc : Accuracy) {n : Nat}
    (places : (max (m.log2 + e - 52) (-1074) - e).toNat = n) :
    shiftToTargetExponent .binary64 m e acc =
      (ExtendedMantissa.ofMantissaAndAccuracy m acc >>> n, e + n) := by
  unfold shiftToTargetExponent shiftToExponent
  rw [targetExponent_total]
  dsimp only
  rw [places]

/-- The bits behind the last place are dropped, and the rest is the nearest mantissa. -/
theorem near_of_cuts {m : Nat} {e : ℤ} {acc : Accuracy}
    (cuts : Cuts (.ofMantissaAndAccuracy m acc) x) (enough : 2 ^ 52 ≤ m ∨ e ≤ -1074) :
    Near (x * 2 ^ e) (shiftToTargetExponent .binary64 m e acc).1.roundedMantissa
      (shiftToTargetExponent .binary64 m e acc).2 := by
  have same : (ExtendedMantissa.ofMantissaAndAccuracy m acc).mantissa = m := by
    unfold ExtendedMantissa.ofMantissaAndAccuracy
    split <;> rfl
  have bounds := cuts.bounds
  rw [same] at bounds
  obtain ⟨large, below⟩ := log2_bounds m x bounds.1 bounds.2
  have unit := two_zpow_pos e
  have enough : 52 ≤ m.log2 ∨ e ≤ -1074 := enough.imp_left fun full =>
    (Nat.le_log2 (by omega)).mpr full
  -- with enough bits the place that is kept is never below the last one there is
  obtain ⟨t, target⟩ : ∃ t, t = max (m.log2 + e - 52) (-1074) := ⟨_, rfl⟩
  obtain ⟨n, shift⟩ : ∃ n : Nat, t = e + n := ⟨(t - e).toNat, by omega⟩
  rw [shift_eq acc (by omega : _ = n), ← shift]
  have scaled : x * 2 ^ e = x / 2 ^ n * 2 ^ t := by
    rw [shift, two_zpow_add, zpow_natCast]
    field_simp
  refine ⟨mul_nonneg (le_trans (Nat.cast_nonneg m) bounds.1) unit.le, by omega, ?_, ?_, ?_⟩
  · rcases large with rfl | large
    · left
      simp only [Nat.log2_zero] at *
      omega
    rcases le_or_gt t (-1074) with low | high
    · exact .inl (by omega)
    · right
      rw [show t + 52 = m.log2 + e by omega, two_zpow_add, zpow_natCast]
      exact mul_le_mul_of_nonneg_right large unit.le
  · have wide : (2 : ℚ) ^ (m.log2 + 1 + e) ≤ 2 ^ (t + 53) := two_zpow_le (by omega)
    refine lt_of_lt_of_le ?_ wide
    rw [two_zpow_add, ← Nat.cast_succ, zpow_natCast]
    exact mul_lt_mul_of_pos_right below unit
  · rw [scaled, ← sub_mul, abs_mul, abs_of_pos (two_zpow_pos t)]
    have close := (cuts.shiftRight n).close
    have := two_zpow_pos t
    nlinarith

/-- A second shift only takes up the bit that rounding may have added. -/
theorem shift_carry (h : Near r mantissa q) :
    let shifted := shiftToTargetExponent .binary64 mantissa q .exact
    shifted.1.mantissa = (carry mantissa q).1 ∧ shifted.2 = (carry mantissa q).2 := by
  have low := h.low
  have le := h.le
  by_cases grown : mantissa = 2 ^ 53
  · rw [grown, carry_grown, shift_eq .exact (n := 1) (by rw [Nat.log2_two_pow]; omega)]
    exact ⟨rfl, rfl⟩
  · have bits : mantissa.log2 ≤ 52 := by
      rcases Nat.eq_zero_or_pos mantissa with zero | positive
      · rw [zero]
        exact Nat.zero_le _
      · exact Nat.lt_succ_iff.mp ((Nat.log2_lt positive.ne').mpr (by omega))
    rw [carry_small q grown, shift_eq .exact (n := 0) (by omega), Nat.cast_zero, add_zero]
    exact ⟨rfl, rfl⟩

/-! ## Storing -/

theorem value?_ofModel (u : UnpackedFloat) : value? (.ofModel (.pack u)) =
    (reading (UnpackedFloat.unpack .binary64 (UnpackedFloat.pack .binary64 u))).value? := by
  rw [value?, unpack_eq]
  rfl

theorem value?_zero (s : Sign) : value? (.ofModel (.pack (.zero s))) = some 0 := by
  have stored : reading (UnpackedFloat.unpack .binary64
      (UnpackedFloat.pack .binary64 (.zero s))) = .finite (isNegative s) 0 (-1074) := by
    cases s <;> rfl
  rw [value?_ofModel, stored]
  simp [Unpacked.value?, signed]

/-- **A cut mantissa is rounded**: what is known of the bits behind it is enough. -/
theorem roundWithAccuracy_renders (s : Sign) {m : Nat} {e : ℤ} {acc : Accuracy}
    (cuts : Cuts (.ofMantissaAndAccuracy m acc) x) (enough : 2 ^ 52 ≤ m ∨ e ≤ -1074) :
    Renders (signed (isNegative s) (x * 2 ^ e))
      (.ofModel (.pack (roundWithAccuracy .binary64 s m e acc))) := by
  have near := near_of_cuts cuts enough
  unfold roundWithAccuracy
  -- the first shift cuts the mantissa, which is then rounded; the second one takes up the carry
  generalize shiftToTargetExponent .binary64 m e acc = first at near
  obtain ⟨mantissa, place⟩ := shift_carry near
  have rounds := near.rounds.signed (isNegative s)
  rw [← carry_value, ← mantissa, ← place] at rounds
  dsimp only
  generalize shiftToTargetExponent .binary64 first.1.roundedMantissa first.2 .exact = second at *
  by_cases zero : second.1.mantissa = 0
  · rw [zero, Nat.cast_zero, zero_mul, signed_zero] at rounds
    rw [dif_pos zero]
    exact .inl ⟨0, value?_zero s, _, rounds⟩
  · rw [dif_neg zero]
    rcases near.carry with canonical | ⟨beyond, large⟩
    · rw [← mantissa, ← place] at canonical
      refine .inl ⟨_, ?_, _, rounds⟩
      rw [value?_ofModel, reading_pack_finite canonical]
      rfl
    · rw [← place] at beyond
      refine .inr ⟨?_, by rwa [abs_signed, abs_of_nonneg near.nonneg]⟩
      rw [value?_ofModel, reading_pack_beyond beyond]
      rfl

theorem shiftLeft_value (m : Nat) {e t : ℤ} (le : t ≤ e) :
    ((m <<< (e - t).toNat : ℕ) : ℚ) * 2 ^ t = m * 2 ^ e := by
  obtain ⟨n, rfl⟩ : ∃ n : ℕ, e = n + t := ⟨(e - t).toNat, by omega⟩
  rw [show (n + t - t).toNat = n by omega, Nat.shiftLeft_eq, two_zpow_add, zpow_natCast]
  push_cast
  ring

theorem decreaseExponent_value (m : Nat) (e t : ℤ) :
    ((decreaseExponent m e t).1 : ℚ) * 2 ^ (decreaseExponent m e t).2 = m * 2 ^ e := by
  unfold decreaseExponent
  obtain ⟨n, places⟩ : ∃ n, n = (e - t).toNat := ⟨_, rfl⟩
  rw [← places]
  have value := shiftLeft_value m (by omega : e - n ≤ e)
  rwa [show (e - (e - n)).toNat = n by omega] at value

theorem round_renders (s : Sign) {m : Nat} (e : ℤ) (positive : 0 < m) :
    Renders (signed (isNegative s) (m * 2 ^ e))
      (.ofModel (.pack (UnpackedFloat.round .binary64 s m e))) := by
  unfold UnpackedFloat.round
  rw [targetExponent_total]
  obtain ⟨t, target⟩ : ∃ t, t = max (m.log2 + e - 52) (-1074) := ⟨_, rfl⟩
  rw [← target, ← decreaseExponent_value m e t]
  refine roundWithAccuracy_renders s rfl ?_
  unfold decreaseExponent
  dsimp only
  rcases le_or_gt (e - (e - t).toNat) (-1074) with low | high
  · exact .inr low
  left
  obtain ⟨n, places⟩ : ∃ n, n = (e - t).toNat := ⟨_, rfl⟩
  rw [← places] at high ⊢
  calc 2 ^ 52 ≤ 2 ^ (m.log2 + n) := Nat.pow_le_pow_right two_pos (by omega)
    _ = 2 ^ m.log2 * 2 ^ n := pow_add 2 m.log2 n
    _ ≤ m * 2 ^ n := Nat.mul_le_mul_right _ (Nat.log2_self_le positive.ne')
    _ = m <<< n := (Nat.shiftLeft_eq m n).symm

theorem zero_renders (s : Sign) : Renders 0 (.ofModel (.pack (.zero s))) :=
  .inl ⟨0, value?_zero s, rounds_zero⟩

theorem normalize_renders (z e : ℤ) (s : Sign) :
    Renders (z * 2 ^ e) (.ofModel (.pack (UnpackedFloat.normalize .binary64 z e s))) := by
  unfold UnpackedFloat.normalize
  rcases lt_trichotomy z 0 with negative | rfl | positive
  · rw [Int.compare_eq_lt.mpr negative]
    have rendered := round_renders .negative e (m := (-z).toNat) (by omega)
    have magnitude : ((-z).toNat : ℚ) = -z := by
      exact_mod_cast (by omega : ((-z).toNat : ℤ) = -z)
    rw [magnitude] at rendered
    simpa [signed, isNegative] using rendered
  · rw [Int.compare_eq_eq.mpr rfl]
    rw [Int.cast_zero, zero_mul]
    exact zero_renders s
  · rw [Int.compare_eq_gt.mpr positive]
    have rendered := round_renders .positive e (m := z.toNat) (by omega)
    have magnitude : (z.toNat : ℚ) = z := by
      exact_mod_cast (by omega : (z.toNat : ℤ) = z)
    rw [magnitude] at rendered
    exact rendered

end ChipEight.Number
