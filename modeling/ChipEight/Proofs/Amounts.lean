import Mathlib
import ChipEight.Proofs.Nearest
/-! # Numbers of one amount

Numbers are compared by their amount, whichever kind they are of: two are the same if they stand at
one place (`Number.same_iff`).  What is not a number has no place, and is not even the same as
itself. -/

namespace ChipEight.Number

open Float.Model Float.Model.UnpackedFloat

/-- Where a number stands: at an amount, or beyond all amounts. -/
inductive Place where
  | at (amount : ℚ)
  | beyond (negative : Bool)
  deriving DecidableEq

def Unpacked.place? : Unpacked → Option Place
  | .finite negative mantissa exponent => some (.at (signed negative (mantissa * 2 ^ exponent)))
  | .infinite negative => some (.beyond negative)
  | .nan => none

def place? : Number → Option Place
  | .int i => some (.at i)
  | .float f => (unpack f).place?

variable {f g : Float} {p : Place} {v w : ℚ}

/-- Two canonical forms of one magnitude are one. -/
theorem Canonical.unique {m m' : Nat} {e e' : ℤ} (canonical : Canonical m e)
    (canonical' : Canonical m' e') (same : (m * 2 ^ e : ℚ) = m' * 2 ^ e') : m = m' ∧ e = e' := by
  have apart {m m' : Nat} {e e' : ℤ} (canonical : Canonical m e) (canonical' : Canonical m' e')
      (less : e < e') : (m * 2 ^ e : ℚ) < m' * 2 ^ e' := by
    -- the larger exponent is not the least one, so its mantissa is full
    have full : 2 ^ 52 ≤ m' := canonical'.normal.resolve_right (by linarith [canonical.low])
    have unit := two_zpow_pos e
    calc (m * 2 ^ e : ℚ) < 2 ^ 53 * 2 ^ e :=
          mul_lt_mul_of_pos_right (by exact_mod_cast canonical.fits) unit
      _ = 2 ^ 52 * 2 ^ (e + 1) := by
          rw [two_zpow_add, zpow_one]
          ring
      _ ≤ 2 ^ 52 * 2 ^ e' := mul_le_mul_of_nonneg_left (two_zpow_le less) (by norm_num)
      _ ≤ m' * 2 ^ e' :=
          mul_le_mul_of_nonneg_right (by exact_mod_cast full) (two_zpow_pos e').le
  rcases lt_trichotomy e e' with less | rfl | more
  · exact absurd same (apart canonical canonical' less).ne
  · exact ⟨by exact_mod_cast mul_right_cancel₀ (two_zpow_pos e).ne' same, rfl⟩
  · exact absurd same (apart canonical' canonical more).ne'

theorem signed_finite_ne_zero (negative : Bool) {m : Nat} (e : ℤ) (positive : 0 < m) :
    signed negative (m * 2 ^ e) ≠ 0 := by
  rw [← abs_pos, abs_signed, abs_pos]
  have := two_zpow_pos e
  positivity

/-! ## Floats -/

/-- How a float is read apart, with the place where it stands. -/
inductive Placed (u : UnpackedFloat) : Option Place → Prop where
  | nan : u = .notANumber → Placed u none
  | infinite (s : Sign) : u = .infinity s → Placed u (some (.beyond (isNegative s)))
  | zero (s : Sign) : u = .zero s → Placed u (some (.at 0))
  | finite (s : Sign) (m : Nat) (e : ℤ) (positive : 0 < m) : u = .finite s m e positive →
      Canonical m e → Placed u (some (.at (signed (isNegative s) (m * 2 ^ e))))

theorem placed (f : Float) : Placed f.toModel.unpack (place? (.float f)) := by
  have read : place? (.float f) = (reading f.toModel.unpack).place? := by rw [place?, unpack_eq]
  rw [read]
  cases parts : f.toModel.unpack with
  | notANumber => exact .nan rfl
  | infinity s => exact .infinite s rfl
  | zero s =>
    have none_ : signed (isNegative s) ((0 : ℕ) * 2 ^ (-1074 : ℤ)) = 0 := by
      rw [Nat.cast_zero, zero_mul, signed_zero]
    rw [reading, Unpacked.place?, none_]
    exact .zero s rfl
  | finite s m e positive => exact .finite s m e positive rfl (canonical_of_unpack parts)

/-- What is not a number has no place, and nothing else. -/
theorem place?_eq_none (f : Float) : place? (.float f) = none ↔ f.isNaN = true := by
  generalize place : place? (.float f) = at_
  have read := placed f
  rw [place] at read
  have asked : f.isNaN = f.toModel.unpack.isNaN := rfl
  rw [asked]
  cases read with
  | nan is => exact iff_of_true rfl (is ▸ rfl)
  | infinite s is | zero s is | finite s m e positive is _ =>
    rw [is]
    exact iff_of_false (Option.some_ne_none _) Bool.false_ne_true

theorem compare_finite {s s' : Sign} {m m' : Nat} {e e' : ℤ} {positive : 0 < m}
    {positive' : 0 < m'} (canonical : Canonical m e) (canonical' : Canonical m' e') :
    (UnpackedFloat.finite s m e positive).compare (.finite s' m' e' positive') = some .eq ↔
      signed (isNegative s) (m * 2 ^ e) = signed (isNegative s') (m' * 2 ^ e') := by
  have equal : (compare e e').then (compare m m') = .eq ↔ (m * 2 ^ e : ℚ) = m' * 2 ^ e' := by
    rw [Ordering.then_eq_eq, compare_eq_iff_eq, compare_eq_iff_eq]
    constructor
    · rintro ⟨rfl, rfl⟩
      rfl
    · exact fun same => (canonical.unique canonical' same).symm
  have above : (0 : ℚ) < m * 2 ^ e := mul_pos (by exact_mod_cast positive) (two_zpow_pos e)
  have above' : (0 : ℚ) < m' * 2 ^ e' := mul_pos (by exact_mod_cast positive') (two_zpow_pos e')
  cases s <;> cases s'
  · refine Iff.trans ?_ (equal.trans neg_inj.symm)
    change some ((compare e e').then (compare m m')).swap = some .eq ↔ _
    rw [Option.some.injEq, Ordering.swap_eq_eq]
  · refine iff_of_false (fun same => by cases same) fun same => ?_
    have same : -((m : ℚ) * 2 ^ e) = m' * 2 ^ e' := same
    linarith
  · refine iff_of_false (fun same => by cases same) fun same => ?_
    have same : (m * 2 ^ e : ℚ) = -(m' * 2 ^ e') := same
    linarith
  · refine Iff.trans ?_ equal
    change some ((compare e e').then (compare m m')) = some .eq ↔ _
    rw [Option.some.injEq]

/-- Floats compare as equal where they stand at one place. -/
theorem compare_eq_iff (f g : Float) :
    f.toModel.unpack.compare g.toModel.unpack = some .eq ↔
      ∃ p, place? (.float f) = some p ∧ place? (.float g) = some p := by
  generalize place : place? (.float f) = at_
  generalize place' : place? (.float g) = at_'
  have one : (∃ p, at_ = some p ∧ at_' = some p) ↔ at_ = at_' ∧ at_ ≠ none := by
    cases at_ <;> cases at_' <;> simp [eq_comm]
  rw [one]
  have left := placed f
  have right := placed g
  rw [place] at left
  rw [place'] at right
  cases left with
  | nan is => simp [is, UnpackedFloat.compare]
  | infinite s is =>
    cases right with
    | nan is' => cases s <;> simp [is, is', UnpackedFloat.compare]
    | infinite s' is' =>
      rw [is, is']
      cases s <;> cases s' <;> decide
    | zero s' is' => cases s <;> simp [is, is', UnpackedFloat.compare]
    | finite s' m' e' positive' is' _ => cases s <;> simp [is, is', UnpackedFloat.compare]
  | zero s is =>
    cases right with
    | nan is' => simp [is, is', UnpackedFloat.compare]
    | infinite s' is' => cases s' <;> simp [is, is', UnpackedFloat.compare]
    | zero s' is' => simp [is, is', UnpackedFloat.compare]
    | finite s' m' e' positive' is' _ =>
      have nonzero := signed_finite_ne_zero (isNegative s') e' positive'
      cases s' <;> simp [is, is', UnpackedFloat.compare, nonzero.symm]
  | finite s m e positive is canonical =>
    cases right with
    | nan is' => cases s <;> simp [is, is', UnpackedFloat.compare]
    | infinite s' is' => cases s <;> cases s' <;> simp [is, is', UnpackedFloat.compare]
    | zero s' is' =>
      have nonzero := signed_finite_ne_zero (isNegative s) e positive
      cases s <;> simp [is, is', UnpackedFloat.compare, nonzero]
    | finite s' m' e' positive' is' canonical' =>
      rw [is, is', compare_finite canonical canonical']
      simp

theorem lt_iff_compare (f g : Float) :
    f < g ↔ f.toModel.unpack.compare g.toModel.unpack = some .lt := by
  have less : f < g ↔ f.toModel.unpack.lt g.toModel.unpack = true :=
    ⟨fun h => of_decide_eq_true (p := f.toModel < g.toModel) h,
      fun h => decide_eq_true (p := f.toModel < g.toModel) h⟩
  rw [less, UnpackedFloat.lt, beq_iff_eq]

theorem same_floats (f g : Float) : (Number.float f).same (.float g) = true ↔
    ∃ p, place? (.float f) = some p ∧ place? (.float g) = some p := by
  have both : (Number.float f).same (.float g) = true ↔
      ¬ f < g ∧ ¬ g < f ∧ f.toModel.unpack.compare g.toModel.unpack = some .eq := by
    have equal : (f == g) = true ↔ f.toModel.unpack.compare g.toModel.unpack = some .eq := by
      change (f.toModel.unpack.compare g.toModel.unpack == some .eq) = true ↔ _
      rw [beq_iff_eq]
    rw [same, compare?, ← equal]
    split <;> [skip; split <;> [skip; split]] <;> simp_all
  rw [both, compare_eq_iff]
  refine ⟨fun h => h.2.2, fun h => ⟨fun less => ?_, fun more => ?_, h⟩⟩
  · rw [lt_iff_compare, (compare_eq_iff f g).mpr h] at less
    cases less
  · obtain ⟨p, here, there⟩ := h
    rw [lt_iff_compare, (compare_eq_iff g f).mpr ⟨p, there, here⟩] at more
    cases more

/-! ## Integers -/

theorem compareIntFloat_eq_iff (i : ℤ) (f : Float) :
    compareIntFloat i f = some .eq ↔ place? (.float f) = some (.at i) := by
  rw [compareIntFloat, place?]
  cases parts : unpack f with
  | nan => simp [Unpacked.place?]
  | infinite negative => cases negative <;> simp [Unpacked.place?]
  | finite negative m e =>
    have value := scale_value m 1 e
    have unit : ((scale m 1 e).2 : ℚ) ≠ 0 := by exact_mod_cast (scale_pos m e one_pos).ne'
    rw [Nat.cast_one, div_one, div_eq_iff unit] at value
    have compared : some (compare (i * (scale m 1 e).2)
        (if negative then -((scale m 1 e).1 : ℤ) else (scale m 1 e).1)) = some .eq ↔
        (i * (scale m 1 e).2 : ℚ) = signed negative (m * 2 ^ e) * (scale m 1 e).2 := by
      rw [Option.some.injEq, Std.compare_eq_iff_eq, ← Int.cast_inj (α := ℚ)]
      cases negative <;> simp [signed, value]
    refine compared.trans ?_
    rw [mul_left_inj' unit, Unpacked.place?, Option.some.injEq, Place.at.injEq, eq_comm]

/-- **Numbers are the same where they stand at one place.** -/
theorem same_iff (a b : Number) :
    a.same b = true ↔ ∃ p, a.place? = some p ∧ b.place? = some p := by
  cases a with
  | int i =>
    cases b with
    | int j =>
      rw [same, compare?, beq_iff_eq, Option.some.injEq, Std.compare_eq_iff_eq]
      simp only [place?, Option.some.injEq, exists_eq_left', Place.at.injEq, Int.cast_inj]
      exact eq_comm
    | float g => simp [same, compare?, compareIntFloat_eq_iff, place?.eq_1]
  | float f =>
    cases b with
    | int j =>
      rw [same, compare?, beq_iff_eq, place?.eq_1]
      have swapped : (compareIntFloat j f).map Ordering.swap = some .eq ↔
          compareIntFloat j f = some .eq := by
        cases compareIntFloat j f with
        | none => simp
        | some order => cases order <;> simp
      rw [swapped, compareIntFloat_eq_iff]
      simp
    | float g => exact same_floats f g

end ChipEight.Number
