import Mathlib
import ChipEight.Proofs.Rates
/-! # Fractions, and floats that are not finite

A float is its whole part and a fraction, and both are floats again: to take the whole part away
needs no rounding (`Number.truncate?_splits`).  Rounding keeps the order, so a sum with what is not
above zero is not above its other part (`Number.Rounds.le_of_le`).  What is not finite takes over
sums and products (`Number.add_not_finite`, `Number.mul_not_finite`), and has neither a whole part
(`Number.truncate?_not_finite`) nor a whole quotient (`Number.floorQuotient_not_finite`). -/

namespace ChipEight

namespace Number

open Float.Model Float.Model.UnpackedFloat

variable {f g : Float} {r s v w : ℚ}

/-! ## Order -/

/-- **Rounding keeps the order**: what is not above a float is not rounded above it. -/
theorem Rounds.le_of_le (h : Rounds r v) (self : Rounds s s) (le : r ≤ s) : v ≤ s := by
  obtain ⟨q, low, normal, below, ⟨k, rfl⟩, close⟩ := h
  obtain ⟨q', low', -, below', ⟨k', whole'⟩, -⟩ := self
  have unit := two_zpow_pos q
  -- the nearest multiple of the last place is not above any multiple that the number is not above
  have next (j : ℤ) (above : r ≤ j * 2 ^ q) : (k : ℚ) * 2 ^ q ≤ j * 2 ^ q := by
    have close := (abs_le.mp close).2
    have less : (k : ℚ) * 2 ^ q < (j + 1) * 2 ^ q := by
      rw [add_mul, one_mul]
      linarith
    have le : k ≤ j := Int.lt_add_one_iff.mp (by exact_mod_cast lt_of_mul_lt_mul_right less unit.le)
    exact mul_le_mul_of_nonneg_right (by exact_mod_cast le) unit.le
  rcases le_or_gt q q' with finer | coarser
  · obtain ⟨n, rfl⟩ : ∃ n : ℕ, q' = q + n := ⟨(q' - q).toNat, by omega⟩
    have multiple : s = (k' * 2 ^ n : ℤ) * 2 ^ q := by
      rw [whole', two_zpow_add, zpow_natCast]
      push_cast
      ring
    rw [multiple] at le ⊢
    exact next _ le
  · -- the number is larger than the float, so it is below zero, and far enough
    have large : 2 ^ (q + 52) ≤ |r| := normal.resolve_left (by omega)
    have small : |s| < 2 ^ (q + 52) := lt_of_lt_of_le below' (two_zpow_le (by omega))
    have lead : (2 : ℚ) ^ (q + 52) = 2 ^ 52 * 2 ^ q := by
      rw [add_comm, two_zpow_add]
      norm_cast
    have negative : r ≤ (-(2 ^ 52) : ℤ) * 2 ^ q := by
      rcases le_or_gt 0 r with nonneg | negative
      · rw [abs_of_nonneg nonneg] at large
        linarith [le_abs_self s]
      · rw [abs_of_neg negative, lead] at large
        push_cast
        linarith
    have far := next _ negative
    rw [lead] at small
    push_cast at far
    linarith [neg_abs_le s]

theorem Rounds.of_le (h : Rounds r v) (value : value? f = some s) (le : r ≤ s) : v ≤ s :=
  h.le_of_le (rounds_self value) le

/-! ## Whole parts and fractions -/

/-- What has few enough bits is a float. -/
theorem rounds_scaled {m : ℕ} {e : ℤ} (fits : m < 2 ^ 53) (low : -1074 ≤ e) :
    Rounds (m * 2 ^ e) (m * 2 ^ e) := by
  rcases Nat.eq_zero_or_pos m with rfl | positive
  · simpa using rounds_zero
  have bits : m.log2 ≤ 52 := Nat.lt_succ_iff.mp ((Nat.log2_lt positive.ne').mpr fits)
  obtain ⟨lower, upper⟩ := log2_bounds m m le_rfl (lt_add_one (m : ℚ))
  have lower := lower.resolve_left positive.ne'
  have unit := two_zpow_pos e
  obtain ⟨q, place⟩ : ∃ q, q = max (-1074) (e + m.log2 - 52) := ⟨_, rfl⟩
  obtain ⟨n, rfl⟩ : ∃ n : ℕ, e = q + n := ⟨(e - q).toNat, by omega⟩
  refine ⟨q, by omega, ?_, ?_, ⟨m * 2 ^ n, ?_⟩, ?_⟩
  · rw [abs_of_nonneg (scaled_nonneg m _)]
    rcases le_or_gt q (-1074) with least | more
    · exact .inl (by omega)
    · right
      rw [show q + 52 = m.log2 + (q + n) by omega, two_zpow_add, zpow_natCast]
      exact mul_le_mul_of_nonneg_right lower unit.le
  · rw [abs_of_nonneg (scaled_nonneg m _)]
    refine lt_of_lt_of_le (mul_lt_mul_of_pos_right upper unit) ?_
    rw [← zpow_natCast, ← two_zpow_add]
    exact two_zpow_le (by push_cast; omega)
  · rw [two_zpow_add, zpow_natCast]
    push_cast
    ring
  · rw [sub_self, abs_zero]
    exact (half_pos (two_zpow_pos q)).le

theorem Rounds.signed (h : Rounds r v) (negative : Bool) :
    Rounds (signed negative r) (signed negative v) := by
  obtain ⟨q, at_⟩ := h
  exact ⟨q, at_.signed negative⟩

/-- A mantissa whose place is beyond the range is worth more than all floats. -/
theorem Near.beyond {mantissa : ℕ} {q : ℤ} (h : Near r mantissa q)
    (beyond : 971 < (Number.carry mantissa q).2) : 2 * reach ≤ mantissa * 2 ^ q := by
  have far : 2 * reach = 2 ^ 52 * 2 ^ (972 : ℤ) := by
    have place : (1023 - (51 : ℕ) : ℤ) = 972 := rfl
    rw [Timers.reach_eq 51, place, ← mul_assoc, ← pow_succ']
  rw [far, ← carry_value]
  refine mul_le_mul ?_ (two_zpow_le (by omega)) (two_zpow_pos _).le (Nat.cast_nonneg _)
  by_cases grown : mantissa = 2 ^ 53
  · rw [grown, carry_grown]
    norm_num
  · rw [carry_small q grown] at beyond ⊢
    exact_mod_cast h.ge.resolve_left (by dsimp only at beyond; omega)

/-- A ratio for which there is no float is rounded to something beyond all of them. -/
theorem nearest_none {negative : Bool} {num den : ℕ} (positive : 0 < den)
    (none_ : nearest negative num den = none) : ∃ v, Rounds (num / den) v ∧ 2 * reach ≤ v := by
  rcases Nat.eq_zero_or_pos num with rfl | some_
  · cases none_
  rw [nearest_eq negative some_ positive] at none_
  have near := near_ratio some_ positive rfl
  rcases near.carry with canonical | ⟨beyond, -⟩
  · obtain ⟨f, stored, -⟩ := store?_canonical negative canonical
    rw [stored] at none_
    cases none_
  · exact ⟨_, ⟨_, near.rounds⟩, near.beyond beyond⟩

/-- An integer that needs no rounding is a float. -/
theorem floatOfInt?_exact {n : ℤ} (self : Rounds n n) (inside : |(n : ℚ)| < 2 * reach) :
    ∃ p, floatOfInt? n = some p ∧ value? p = some (n : ℚ) := by
  rcases floatOfInt?_renders n with ⟨p, w, stored, value, rounds⟩ | ⟨none_, -⟩
  · exact ⟨p, stored, by rw [value, rounds.eq_self self]⟩
  · obtain ⟨v, rounds, beyond⟩ := nearest_none one_pos none_
    have magnitude : ((n.natAbs : ℚ) / (1 : ℕ)) = |(n : ℚ)| := by
      rw [Nat.cast_one, div_one, Nat.cast_natAbs, Int.cast_abs]
    have self' : Rounds |(n : ℚ)| |(n : ℚ)| := by
      rcases le_total 0 (n : ℚ) with nonneg | nonpos
      · rwa [abs_of_nonneg nonneg]
      · rw [abs_of_nonpos nonpos]
        exact self.signed true
    rw [magnitude] at rounds
    rw [rounds.eq_self self'] at beyond
    linarith

theorem floatOfInt?_finite {n : ℤ} (stored : floatOfInt? n = some f) : f.isFinite = true := by
  rcases floatOfInt?_renders n with ⟨p, w, stored', value, -⟩ | ⟨none_, -⟩
  · rw [stored] at stored'
    cases stored'
    exact (isFinite_iff f).mpr ⟨w, value⟩
  · rw [stored] at none_
    cases none_

theorem truncate?_eq {negative : Bool} {m : ℕ} {e : ℤ} (parts : unpack f = .finite negative m e) :
    ∃ n : ℤ, truncate? f = some n ∧ (n : ℚ) = signed negative
      (if 0 ≤ e then m <<< e.toNat else m >>> (-e).toNat : ℕ) := by
  refine ⟨_, by rw [truncate?, parts], ?_⟩
  rw [signed_natCast]

/-- **A float less its whole part is a fraction**, without rounding. -/
theorem truncate?_splits (h : value? f = some v) : ∃ (n : ℤ) (p : Float),
    truncate? f = some n ∧ floatOfInt? n = some p ∧ value? (f - p) = some (v - n) ∧
    |v - n| < 1 ∧ |(n : ℚ)| ≤ |v| := by
  obtain ⟨n, truncated, close⟩ := truncate?_close h
  have bits : Rounds n n ∧ Rounds (v - n) (v - n) ∧ |(n : ℚ)| ≤ |v| := by
    obtain ⟨negative, m, e, parts, rfl, canonical⟩ := unpack_of_value h
    obtain ⟨n', truncated', whole⟩ := truncate?_eq parts
    rw [truncated] at truncated'
    cases truncated'
    split at whole
    · rename_i integer
      have value := shiftLeft_value m integer
      rw [sub_zero, zpow_zero, mul_one] at value
      rw [value] at whole
      rw [whole, sub_self]
      exact ⟨rounds_self h, rounds_zero, le_rfl⟩
    · rename_i broken
      obtain ⟨k, rfl⟩ : ∃ k : ℕ, e = -k := ⟨(-e).toNat, by omega⟩
      rw [show (- -(k : ℤ)).toNat = k by omega, Nat.shiftRight_eq_div_pow] at whole
      have fits := canonical.fits
      have quotient := rounds_scaled (lt_of_le_of_lt (Nat.div_le_self m (2 ^ k)) fits)
        (by norm_num : (-1074 : ℤ) ≤ 0)
      rw [zpow_zero, mul_one] at quotient
      have rest := rounds_scaled (lt_of_le_of_lt (Nat.mod_le m (2 ^ k)) fits) canonical.low
      have split_ : (m * 2 ^ (-k : ℤ) : ℚ) =
          (m / 2 ^ k : ℕ) + (m % 2 ^ k : ℕ) * 2 ^ (-k : ℤ) := by
        have whole : ((2 ^ k * (m / 2 ^ k) + m % 2 ^ k : ℕ) : ℚ) = m := by
          rw [Nat.div_add_mod]
        rw [zpow_neg, zpow_natCast, ← whole]
        push_cast
        field_simp
      rw [whole, signed_sub, split_, add_sub_cancel_left, abs_signed, abs_signed]
      refine ⟨quotient.signed negative, rest.signed negative, ?_⟩
      rw [Nat.abs_cast, abs_of_nonneg (add_nonneg (Nat.cast_nonneg _) (scaled_nonneg _ _))]
      exact le_add_of_nonneg_right (scaled_nonneg _ _)
  obtain ⟨self, rest, le⟩ := bits
  have inside := abs_lt_of_value h
  obtain ⟨p, stored, value⟩ := floatOfInt?_exact self (lt_of_le_of_lt le inside)
  rw [abs_sub_comm] at close
  have large := Timers.reach_large
  exact ⟨n, p, truncated, stored, (sub_renders h value).exact (by linarith) rest, close, le⟩

/-! ## Floats that are not finite -/

theorem not_finite_iff : ¬ f.isFinite = true ↔ value? f = none := by
  rw [isFinite_iff, not_exists, Option.eq_none_iff_forall_ne_some]

/-- How a float is read apart that is not finite. -/
def Endless (u : UnpackedFloat) : Prop := u = .notANumber ∨ ∃ s, u = .infinity s

theorem endless_unpack (h : ¬ f.isFinite = true) : Endless f.toModel.unpack := by
  rw [not_finite_iff, value?, unpack_eq] at h
  cases parts : f.toModel.unpack with
  | notANumber => exact .inl rfl
  | infinity s => exact .inr ⟨s, rfl⟩
  | zero s | finite s m e positive =>
    rw [parts] at h
    cases h

theorem Endless.pack {u : UnpackedFloat} (h : Endless u) :
    ¬ (Float.ofModel (.pack u)).isFinite = true := by
  rw [not_finite_iff, value?_ofModel]
  rcases h with rfl | ⟨s, rfl⟩
  · rfl
  · cases s <;> rfl

/-- **A sum with what is not finite is not finite.** -/
theorem add_not_finite (h : ¬ f.isFinite = true ∨ ¬ g.isFinite = true) :
    ¬ (f + g).isFinite = true := by
  have endless : Endless (UnpackedFloat.add .binary64 f.toModel.unpack g.toModel.unpack) := by
    rcases h with left | right
    · rcases endless_unpack left with is | ⟨s, is⟩ <;> rw [is] <;> cases g.toModel.unpack <;>
        simp only [UnpackedFloat.add] <;> (try split) <;> simp [Endless]
    · rcases endless_unpack right with is | ⟨s, is⟩ <;> rw [is] <;> cases f.toModel.unpack <;>
        simp only [UnpackedFloat.add] <;> (try split) <;> simp [Endless]
  exact endless.pack

/-- A product with what is not finite is not finite. -/
theorem mul_not_finite (h : ¬ f.isFinite = true ∨ ¬ g.isFinite = true) :
    ¬ (f * g).isFinite = true := by
  have endless : Endless (UnpackedFloat.mul .binary64 f.toModel.unpack g.toModel.unpack) := by
    rcases h with left | right
    · rcases endless_unpack left with is | ⟨s, is⟩ <;> rw [is] <;> cases g.toModel.unpack <;>
        simp [UnpackedFloat.mul, Endless]
    · rcases endless_unpack right with is | ⟨s, is⟩ <;> rw [is] <;> cases f.toModel.unpack <;>
        simp [UnpackedFloat.mul, Endless]
  exact endless.pack

/-- What goes into finite numbers is finite. -/
theorem values_of_not_finite {h : Float} (of_ : ¬ f.isFinite = true ∨ ¬ g.isFinite = true →
    ¬ h.isFinite = true) (finite : h.isFinite = true) :
    ∃ v w, value? f = some v ∧ value? g = some w := by
  obtain ⟨v, left⟩ := (isFinite_iff f).mp (by_contra fun endless => of_ (.inl endless) finite)
  obtain ⟨w, right⟩ := (isFinite_iff g).mp (by_contra fun endless => of_ (.inr endless) finite)
  exact ⟨v, w, left, right⟩

theorem values_of_add (finite : (f + g).isFinite = true) :
    ∃ v w, value? f = some v ∧ value? g = some w := values_of_not_finite add_not_finite finite

theorem values_of_mul (finite : (f * g).isFinite = true) :
    ∃ v w, value? f = some v ∧ value? g = some w := values_of_not_finite mul_not_finite finite

theorem sub_nan (f : Float) : f - nan = nan := by
  change Float.ofModel (.pack (UnpackedFloat.sub .binary64 f.toModel.unpack .notANumber)) = nan
  cases f.toModel.unpack <;> simp only [UnpackedFloat.sub] <;> rfl

theorem nan_div (f : Float) : nan / f = nan := by
  change Float.ofModel (.pack (UnpackedFloat.div .binary64 .notANumber f.toModel.unpack)) = nan
  cases f.toModel.unpack <;> rfl

theorem truncate?_not_finite (h : ¬ f.isFinite = true) : truncate? f = none := by
  rw [not_finite_iff, value?] at h
  rw [truncate?]
  cases parts : unpack f with
  | finite negative m e =>
    rw [parts] at h
    cases h
  | infinite negative | nan => rfl

theorem truncate?_eq_none : truncate? f = none ↔ ¬ f.isFinite = true := by
  refine ⟨fun none_ finite => ?_, truncate?_not_finite⟩
  obtain ⟨v, value⟩ := (isFinite_iff f).mp finite
  obtain ⟨n, truncated, -⟩ := truncate?_close value
  rw [none_] at truncated
  cases truncated

/-- What has a whole part is finite, and the whole part a float. -/
theorem truncate?_parts {n : ℤ} (whole : truncate? f = some n) : ∃ (v : ℚ) (p : Float),
    value? f = some v ∧ floatOfInt? n = some p ∧ value? (f - p) = some (v - n) ∧
    |v - n| < 1 ∧ |(n : ℚ)| ≤ |v| := by
  obtain ⟨v, value⟩ := (isFinite_iff f).mp (by
    by_contra endless
    rw [truncate?_not_finite endless] at whole
    cases whole)
  obtain ⟨n', p, truncated, parts⟩ := truncate?_splits value
  rw [whole] at truncated
  cases truncated
  exact ⟨v, p, value, parts⟩

/-- What is not finite has no remainder, and so no quotient. -/
theorem floorQuotient_not_finite (h : ¬ f.isFinite = true) (g : Float) :
    floorQuotient f g = nan := by
  have remains : remainder f g = nan := by
    rw [not_finite_iff, value?] at h
    rw [remainder]
    cases parts : unpack f with
    | finite negative m e =>
      rw [parts] at h
      cases h
    | infinite negative | nan => rfl
  rw [floorQuotient, remains]
  dsimp only
  rw [sub_nan, nan_div]
  have less : nan - 1.0 = nan := by rfl
  have some_ : (nan != 0.0) = true := by decide +kernel
  have whole : floor nan = nan := by rfl
  rw [less, ite_self, if_pos some_, whole, sub_nan]
  rfl

end Number
end ChipEight
