import ChipEight.Proofs.Rounding
/-! # Arithmetic of floats

The four operations give the sum, difference, product and quotient of the two values, rounded
(`Number.add_renders` and the others). -/

namespace ChipEight.Number

open Float.Model Float.Model.UnpackedFloat

/-! ## Finite floats -/

theorem Canonical.near {m : Nat} {e : ℤ} (canonical : Canonical m e) : Near (m * 2 ^ e) m e := by
  have unit := two_zpow_pos e
  refine ⟨mul_nonneg (Nat.cast_nonneg m) unit.le, canonical.low, canonical.normal.symm.imp_right ?_,
    ?_, by simpa using (half_pos unit).le⟩
  · intro full
    rw [add_comm, two_zpow_add]
    exact mul_le_mul_of_nonneg_right (by exact_mod_cast full) unit.le
  · rw [add_comm, two_zpow_add]
    exact mul_lt_mul_of_pos_right (by exact_mod_cast canonical.fits) unit

/-- How a finite float is read apart. -/
inductive Stands (u : UnpackedFloat) (v : ℚ) : Prop where
  | zero (s : Sign) (is : u = .zero s) (value : v = 0)
  | finite (s : Sign) (m : Nat) (e : ℤ) (positive : 0 < m) (is : u = .finite s m e positive)
      (value : v = signed (isNegative s) (m * 2 ^ e)) (canonical : Canonical m e)

variable {f g : Float} {v w : ℚ}

theorem stands (h : value? f = some v) : Stands f.toModel.unpack v := by
  rw [value?, unpack_eq] at h
  cases parts : f.toModel.unpack with
  | notANumber =>
    rw [parts] at h
    cases h
  | infinity s =>
    rw [parts] at h
    cases h
  | zero s =>
    rw [parts] at h
    refine .zero s rfl ((Option.some.inj h).symm.trans ?_)
    rw [Nat.cast_zero, zero_mul, signed_zero]
  | finite s m e positive =>
    rw [parts] at h
    exact .finite s m e positive rfl (Option.some.inj h).symm (canonical_of_unpack parts)

theorem isFinite_iff (f : Float) : f.isFinite = true ↔ ∃ v, value? f = some v := by
  change Float.Model.UnpackedFloat.isFinite f.toModel.unpack = true ↔ _
  rw [value?, unpack_eq]
  cases f.toModel.unpack with
  | notANumber | infinity s => exact iff_of_false Bool.false_ne_true (by rintro ⟨v, ⟨⟩⟩)
  | zero s | finite s m e positive => exact iff_of_true rfl ⟨_, rfl⟩

theorem value?_repack (f : Float) : value? (.ofModel (.pack f.toModel.unpack)) = value? f := by
  rw [value?_ofModel, value?, unpack_eq]
  exact congrArg _ (reading_repack _)

/-- A float is what its own value is rounded to. -/
theorem rounds_self (h : value? f = some v) : Rounds v v := by
  cases stands h with
  | zero s is value =>
    subst value
    exact rounds_zero
  | finite s m e positive is value canonical =>
    subst value
    exact ⟨e, canonical.near.rounds.signed _⟩

theorem self_renders (h : value? f = some v) : Renders v (.ofModel (.pack f.toModel.unpack)) :=
  .inl ⟨v, (value?_repack f).trans h, rounds_self h⟩

theorem Canonical.renders (s : Sign) {m : Nat} {e : ℤ} {positive : 0 < m}
    (canonical : Canonical m e) :
    Renders (signed (isNegative s) (m * 2 ^ e)) (.ofModel (.pack (.finite s m e positive))) := by
  refine .inl ⟨_, ?_, e, canonical.near.rounds.signed _⟩
  rw [value?_ofModel, reading_pack_finite canonical]
  rfl

theorem unpack_of_value (h : value? f = some v) : ∃ negative m e,
    unpack f = .finite negative m e ∧ v = signed negative (m * 2 ^ e) ∧ Canonical m e := by
  rw [value?] at h
  cases parts : unpack f with
  | finite negative m e =>
    rw [parts] at h
    refine ⟨negative, m, e, rfl, (Option.some.inj h).symm, ?_⟩
    have biased : (f.toBits.toNat >>> 52) % 2048 < 2048 := Nat.mod_lt _ (by norm_num)
    exact canonical_compose biased (Nat.mod_lt _ (by norm_num [leadingBit])) parts
  | infinite negative =>
    rw [parts] at h
    cases h
  | nan =>
    rw [parts] at h
    cases h

theorem abs_lt_of_value (h : value? f = some v) : |v| < 2 * reach := by
  obtain ⟨negative, m, e, -, rfl, canonical⟩ := unpack_of_value h
  rw [abs_signed, abs_of_nonneg (scaled_nonneg m e)]
  have below := canonical.near.below
  have wide : (2 : ℚ) ^ (e + 53) ≤ 2 ^ (1 + 1023 : ℤ) := two_zpow_le (by linarith [canonical.high])
  rw [two_zpow_add 1 1023, zpow_one, ← reach] at wide
  exact lt_of_lt_of_le below wide

theorem zero_unpack : (0.0 : Float).toModel.unpack = .zero .positive := by rfl

theorem value?_nil : value? 0.0 = some 0 := by
  rw [value?, unpack_eq, zero_unpack]
  change some (signed false ((0 : ℕ) * 2 ^ (-1074 : ℤ))) = some 0
  rw [Nat.cast_zero, zero_mul, signed_zero]

theorem value?_one : value? 1.0 = some 1 := by
  have parts : unpack 1.0 = .finite false (2 ^ 52) (-52) := by rfl
  rw [value?, parts]
  norm_num [Unpacked.value?, signed]

theorem beq_zero (h : value? f = some v) : (f == 0.0) = true ↔ v = 0 := by
  change f.toModel.unpack.beq (0.0 : Float).toModel.unpack = true ↔ _
  rw [zero_unpack]
  cases stands h with
  | zero s is value =>
    rw [is]
    exact iff_of_true rfl value
  | finite s m e positive is value canonical =>
    rw [is]
    have nonzero : v ≠ 0 := by
      rw [value, ← abs_pos, abs_signed, abs_pos]
      have := two_zpow_pos e
      positivity
    cases s <;> exact iff_of_false (fun same => by cases same) nonzero

theorem lt_zero (h : value? f = some v) (nonneg : 0 ≤ v) : ¬ f < 0.0 := by
  intro less
  have less : f.toModel.unpack.lt (0.0 : Float).toModel.unpack = true :=
    of_decide_eq_true (p := f.toModel < (0.0 : Float).toModel) less
  rw [zero_unpack] at less
  cases stands h with
  | zero s is value =>
    rw [is] at less
    cases less
  | finite s m e positive is value canonical =>
    rw [is] at less
    cases s with
    | positive => cases less
    | negative =>
      have : (0 : ℚ) < m * 2 ^ e := mul_pos (by exact_mod_cast positive) (two_zpow_pos e)
      have negative : v = -(m * 2 ^ e) := value
      linarith

/-! ## Sums and differences -/

theorem signed_decrease (s : Sign) (m : Nat) {e t : ℤ} (le : t ≤ e) :
    ((s.apply (decreaseExponent m e t).1 : ℤ) : ℚ) * 2 ^ t = signed (isNegative s) (m * 2 ^ e) := by
  have value : ((decreaseExponent m e t).1 : ℚ) * 2 ^ t = m * 2 ^ e := shiftLeft_value m le
  cases s with
  | positive => simpa [Sign.apply, signed, isNegative] using value
  | negative => simpa [Sign.apply, signed, isNegative] using value

theorem add_renders (left : value? f = some v) (right : value? g = some w) :
    Renders (v + w) (f + g) := by
  change Renders _
    (.ofModel (.pack (UnpackedFloat.add .binary64 f.toModel.unpack g.toModel.unpack)))
  cases stands left with
  | zero s is value =>
    subst value
    rw [zero_add]
    cases stands right with
    | zero s' is' value' =>
      subst value'
      rw [is, is']
      cases s <;> cases s' <;> exact zero_renders _
    | finite s' m' e' positive' is' value' canonical' =>
      have same := self_renders right
      rw [is'] at same
      rw [is, is']
      exact same
  | finite s m e positive is value canonical =>
    cases stands right with
    | zero s' is' value' =>
      have same := self_renders left
      rw [is] at same
      rw [is, is', value', add_zero]
      exact same
    | finite s' m' e' positive' is' value' canonical' =>
      subst value value'
      rw [is, is']
      unfold UnpackedFloat.add
      dsimp only
      rw [← signed_decrease s m (min_le_left e e'), ← signed_decrease s' m' (min_le_right e e'),
        ← add_mul, ← Int.cast_add]
      exact normalize_renders _ _ _

theorem sub_renders (left : value? f = some v) (right : value? g = some w) :
    Renders (v - w) (f - g) := by
  change Renders _
    (.ofModel (.pack (UnpackedFloat.sub .binary64 f.toModel.unpack g.toModel.unpack)))
  cases stands left with
  | zero s is value =>
    subst value
    cases stands right with
    | zero s' is' value' =>
      subst value'
      rw [is, is', sub_zero]
      cases s <;> cases s' <;> exact zero_renders _
    | finite s' m' e' positive' is' value' canonical' =>
      have opposite :
          -signed (isNegative s') (m' * 2 ^ e') = signed (isNegative (-s')) (m' * 2 ^ e') := by
        cases s' with
        | positive => rfl
        | negative => exact neg_neg _
      rw [is, is', value', zero_sub, opposite]
      exact canonical'.renders _
  | finite s m e positive is value canonical =>
    cases stands right with
    | zero s' is' value' =>
      have same := self_renders left
      rw [is] at same
      rw [is, is', value', sub_zero]
      exact same
    | finite s' m' e' positive' is' value' canonical' =>
      subst value value'
      rw [is, is']
      unfold UnpackedFloat.sub
      dsimp only
      rw [← signed_decrease s m (min_le_left e e'), ← signed_decrease s' m' (min_le_right e e'),
        ← sub_mul, ← Int.cast_sub]
      exact normalize_renders _ _ _

/-! ## Products and quotients -/

theorem signed_mul (s s' : Sign) (a b : ℚ) :
    signed (isNegative s) a * signed (isNegative s') b = signed (isNegative (s * s')) (a * b) := by
  cases s <;> cases s'
  · exact neg_mul_neg a b
  · exact neg_mul a b
  · exact mul_neg a b
  · rfl

theorem mul_renders (left : value? f = some v) (right : value? g = some w) :
    Renders (v * w) (f * g) := by
  change Renders _
    (.ofModel (.pack (UnpackedFloat.mul .binary64 f.toModel.unpack g.toModel.unpack)))
  cases stands left with
  | zero s is value =>
    subst value
    rw [zero_mul]
    cases stands right with
    | zero s' is' value' =>
      rw [is, is']
      exact zero_renders _
    | finite s' m' e' positive' is' value' canonical' =>
      rw [is, is']
      exact zero_renders _
  | finite s m e positive is value canonical =>
    cases stands right with
    | zero s' is' value' =>
      subst value'
      rw [is, is', mul_zero]
      exact zero_renders _
    | finite s' m' e' positive' is' value' canonical' =>
      have enough : 2 ^ 52 ≤ m * m' ∨ e + e' ≤ -1074 := by
        rcases canonical.normal with full | low
        · exact .inl (Nat.le_trans full (Nat.le_mul_of_pos_right m positive'))
        rcases canonical'.normal with full | low'
        · exact .inl (Nat.le_trans full (Nat.le_mul_of_pos_left m' positive))
        · exact .inr (by omega)
      have product : (m * 2 ^ e : ℚ) * (m' * 2 ^ e') = (m * m' : ℕ) * 2 ^ (e + e') := by
        rw [two_zpow_add]
        push_cast
        ring
      subst value value'
      rw [is, is', signed_mul, product]
      exact roundWithAccuracy_renders (s * s') rfl enough

theorem signed_div (s s' : Sign) (a b : ℚ) :
    signed (isNegative s) a / signed (isNegative s') b = signed (isNegative (s / s')) (a / b) := by
  cases s <;> cases s'
  · exact neg_div_neg_eq a b
  · exact neg_div b a
  · exact div_neg a
  · rfl

/-- What division knows of the bits behind a quotient. -/
theorem cuts_fraction {d : Nat} (n : Nat) (positive : 0 < d) :
    Cuts (.ofMantissaAndAccuracy (n / d) (accuracyOfFraction (n % d) d)) (n / d : ℚ) := by
  have unit : (0 : ℚ) < d := by exact_mod_cast positive
  have split_ : (n / d : ℚ) = (n / d : ℕ) + (n % d : ℕ) / d := by
    have whole : (d : ℚ) * (n / d : ℕ) + (n % d : ℕ) = n := by exact_mod_cast Nat.div_add_mod n d
    rw [div_eq_iff unit.ne', add_mul, div_mul_cancel₀ _ unit.ne']
    linarith
  have rest : ((n % d : ℕ) : ℚ) / d < 1 := by
    rw [div_lt_one unit]
    exact_mod_cast Nat.mod_lt n positive
  unfold accuracyOfFraction
  split
  · rename_i whole
    simp [ExtendedMantissa.ofMantissaAndAccuracy, Cuts, split_, whole]
  · rename_i broken
    have some_ : (0 : ℚ) < (n % d : ℕ) / d :=
      div_pos (by exact_mod_cast Nat.pos_of_ne_zero broken) unit
    rcases lt_trichotomy (2 * (n % d)) d with less | half | more
    · rw [Nat.compare_eq_lt.mpr less]
      have : ((n % d : ℕ) : ℚ) / d < 1 / 2 := by
        rw [div_lt_div_iff₀ unit two_pos]
        exact_mod_cast (by omega : n % d * 2 < 1 * d)
      simp only [ExtendedMantissa.ofMantissaAndAccuracy, Cuts, split_]
      constructor <;> linarith
    · rw [Nat.compare_eq_eq.mpr half]
      have : ((n % d : ℕ) : ℚ) / d = 1 / 2 := by
        rw [div_eq_div_iff unit.ne' two_ne_zero]
        exact_mod_cast (by omega : n % d * 2 = 1 * d)
      simp only [ExtendedMantissa.ofMantissaAndAccuracy, Cuts, split_]
      linarith
    · rw [Nat.compare_eq_gt.mpr more]
      have : 1 / 2 < ((n % d : ℕ) : ℚ) / d := by
        rw [div_lt_div_iff₀ two_pos unit]
        exact_mod_cast (by omega : 1 * d < n % d * 2)
      simp only [ExtendedMantissa.ofMantissaAndAccuracy, Cuts, split_]
      constructor <;> linarith

theorem quotient_full {m m' n : ℕ} (positive : 0 < m) (positive' : 0 < m')
    (bits : 52 + (m'.log2 + 1) ≤ m.log2 + n) : 2 ^ 52 ≤ m <<< n / m' := by
  rw [Nat.le_div_iff_mul_le positive', Nat.shiftLeft_eq]
  calc 2 ^ 52 * m' ≤ 2 ^ 52 * 2 ^ (m'.log2 + 1) :=
        Nat.mul_le_mul_left _ Nat.lt_log2_self.le
    _ = 2 ^ (52 + (m'.log2 + 1)) := (pow_add 2 _ _).symm
    _ ≤ 2 ^ (m.log2 + n) := Nat.pow_le_pow_right two_pos bits
    _ = 2 ^ m.log2 * 2 ^ n := pow_add 2 _ _
    _ ≤ m * 2 ^ n := Nat.mul_le_mul_right _ (Nat.log2_self_le positive.ne')

theorem quotient_value {m m' n : ℕ} {e e' t : ℤ} (positive' : 0 < m') (shift : e - e' = t + n) :
    (m * 2 ^ e : ℚ) / (m' * 2 ^ e') = ((m <<< n : ℕ) / m' : ℚ) * 2 ^ t := by
  have unit := two_zpow_pos e'
  have divisor : (m' : ℚ) ≠ 0 := by exact_mod_cast positive'.ne'
  rw [Nat.shiftLeft_eq, show e = t + n + e' by omega, two_zpow_add, two_zpow_add, zpow_natCast]
  push_cast
  field_simp

theorem div_renders (left : value? f = some v) (right : value? g = some w) (nonzero : w ≠ 0) :
    Renders (v / w) (f / g) := by
  change Renders _
    (.ofModel (.pack (UnpackedFloat.div .binary64 f.toModel.unpack g.toModel.unpack)))
  cases stands right with
  | zero s' is' value' => exact absurd value' nonzero
  | finite s' m' e' positive' is' value' canonical' =>
    cases stands left with
    | zero s is value =>
      rw [is, is', value, zero_div]
      exact zero_renders _
    | finite s m e positive is value canonical =>
      have apart : Format.binary64.targetExponent (totalExponent m e - totalExponent m' e') =
          max (m.log2 + e - (m'.log2 + e') - 53) (-1074) := by
        rw [targetExponent_eq]
        unfold totalExponent
        omega
      -- the dividend is shifted until the quotient has all the bits that are kept
      obtain ⟨t, target⟩ : ∃ t, t = min (e - e') (max (m.log2 + e - (m'.log2 + e') - 53) (-1074)) :=
        ⟨_, rfl⟩
      obtain ⟨n, shift⟩ : ∃ n : Nat, e - e' = t + n := ⟨(e - e' - t).toNat, by omega⟩
      have enough : 2 ^ 52 ≤ m <<< n / m' ∨ t ≤ -1074 := by
        rcases le_or_gt t (-1074) with low | high
        · exact .inr low
        · exact .inl (quotient_full positive positive' (by omega))
      subst value value'
      rw [is, is', signed_div, quotient_value positive' shift]
      unfold UnpackedFloat.div divCore
      dsimp only
      rw [apart, ← target, show (e - e' - t).toNat = n by omega]
      exact roundWithAccuracy_renders (s / s') (cuts_fraction _ positive') enough

end ChipEight.Number
