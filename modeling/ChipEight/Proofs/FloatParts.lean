import ChipEight.Number.Binary64
import Mathlib.Algebra.Group.Nat.Defs
/-! # The parts of a float

`Number.unpack` reads a float from its bits, and arithmetic works on an unpacked float of its own
kind.  The two agree (`Number.unpack_eq`).  What is stored is in canonical form
(`Number.Canonical`), so packing and unpacking gives it back. -/

namespace ChipEight.Number

open Float.Model Float.Model.UnpackedFloat

def isNegative : Sign → Bool
  | .negative => true
  | .positive => false

/-- An unpacked float with its sign as a truth value. -/
def reading : UnpackedFloat → Unpacked
  | .notANumber => .nan
  | .infinity s => .infinite (isNegative s)
  | .zero s => .finite (isNegative s) 0 (-1074)
  | .finite s m e _ => .finite (isNegative s) m e

/-- What the fields of a float stand for. -/
def compose (negative : Bool) (biased fraction : Nat) : Unpacked :=
  if biased == 2047 then
    if fraction == 0 then .infinite negative else .nan
  else if biased == 0 then .finite negative fraction (-1074)
  else .finite negative (fraction + leadingBit) ((biased : Int) - 1075)

/-! ## Unpacking -/

section Fields

variable (b : BitVec 64)

theorem toNat_unpackMantissa :
    (@unpackMantissa .binary64 b).toNat = b.toNat % leadingBit := by
  simp [unpackMantissa, leadingBit]

theorem toNat_unpackExponent :
    (@unpackExponent .binary64 b).toNat = b.toNat >>> 52 % 2048 := by
  simp [unpackExponent]

theorem toNat_unpackSign : (@unpackSign .binary64 b).toNat = b.toNat >>> 63 := by
  change (b.extractLsb 63 63).toNat = _
  have := b.isLt
  rw [BitVec.extractLsb_toNat]
  omega

theorem isNegative_ofBitVec (b : BitVec 1) : isNegative (Sign.ofBitVec b) = (b.toNat == 1) := by
  revert b
  decide

theorem leading_append (b : BitVec 52) : (1#1 ++ b).toNat = b.toNat + leadingBit := by
  rw [BitVec.toNat_append, ← Nat.shiftLeft_add_eq_or_of_lt b.isLt, Nat.add_comm]
  rfl

theorem reading_unpack : reading (UnpackedFloat.unpack .binary64 b) =
    compose (isNegative (Sign.ofBitVec (@unpackSign .binary64 b)))
      (@unpackExponent .binary64 b).toNat (@unpackMantissa .binary64 b).toNat := by
  have top : @unpackExponent .binary64 b = -1#11 ↔
      (@unpackExponent .binary64 b).toNat = 2047 := by
    rw [← BitVec.toNat_inj]
    rfl
  have bottom : @unpackExponent .binary64 b = 0#11 ↔
      (@unpackExponent .binary64 b).toNat = 0 := by
    rw [← BitVec.toNat_inj]
    rfl
  have zero : @unpackMantissa .binary64 b = 0#52 ↔
      (@unpackMantissa .binary64 b).toNat = 0 := by
    rw [← BitVec.toNat_inj]
    rfl
  unfold UnpackedFloat.unpack compose
  dsimp only
  by_cases infinite : (@unpackExponent .binary64 b).toNat = 2047
  · rw [if_pos (top.mpr infinite), if_pos (beq_iff_eq.mpr infinite)]
    by_cases blank : (@unpackMantissa .binary64 b).toNat = 0
    · rw [if_pos (zero.mpr blank), if_pos (beq_iff_eq.mpr blank)]
      rfl
    · rw [if_neg (mt zero.mp blank), if_neg (mt beq_iff_eq.mp blank)]
      rfl
  rw [if_neg (mt top.mp infinite), if_neg (mt beq_iff_eq.mp infinite)]
  by_cases small : (@unpackExponent .binary64 b).toNat = 0
  · rw [if_pos (bottom.mpr small), if_pos (beq_iff_eq.mpr small), small]
    by_cases blank : (@unpackMantissa .binary64 b).toNat = 0
    · rw [dif_pos (zero.mpr blank), blank]
      rfl
    · rw [dif_neg (mt zero.mp blank)]
      rfl
  · rw [if_neg (mt bottom.mp small), if_neg (mt beq_iff_eq.mp small)]
    change Unpacked.finite _ (1#1 ++ @unpackMantissa .binary64 b).toNat _ = _
    rw [leading_append]
    rfl

end Fields

theorem unpack_eq (f : Float) : unpack f = reading f.toModel.unpack := by
  unfold Float.Model.unpack
  rw [reading_unpack, isNegative_ofBitVec, toNat_unpackSign, toNat_unpackExponent,
    toNat_unpackMantissa]
  rfl

/-! ## Packing -/

theorem unpackSign_packComponents (s : Sign) (exponent : BitVec 11) (mantissa : BitVec 52) :
    unpackSign (packComponents .binary64 s exponent mantissa) = s.toBitVec := by
  refine BitVec.eq_of_getLsbD_eq fun i inside => ?_
  obtain rfl : i = 0 := by omega
  unfold unpackSign
  simp only [BitVec.getLsbD_cast, BitVec.getLsbD_extractLsb]
  change (s.toBitVec ++ exponent ++ mantissa : BitVec (1 + 11 + 52)).getLsbD 63 = _
  rw [BitVec.getLsbD_append, BitVec.getLsbD_append]
  rfl

theorem reading_packComponents (s : Sign) (exponent : BitVec 11) (mantissa : BitVec 52) :
    reading (UnpackedFloat.unpack .binary64 (packComponents .binary64 s exponent mantissa)) =
      compose (isNegative s) exponent.toNat mantissa.toNat := by
  rw [reading_unpack, unpackExponent_packComponents, unpackMantissa_packComponents,
    unpackSign_packComponents]
  cases s <;> rfl

/-- The mantissas and exponents that are stored. -/
structure Canonical (mantissa : Nat) (exponent : Int) : Prop where
  fits : mantissa < 2 ^ 53
  low : -1074 ≤ exponent
  high : exponent ≤ 971
  normal : 2 ^ 52 ≤ mantissa ∨ exponent = -1074

theorem canonical_compose {negative sign : Bool} {biased fraction mantissa : Nat} {exponent : Int}
    (small : biased < 2048) (fits : fraction < 2 ^ 52)
    (h : compose negative biased fraction = .finite sign mantissa exponent) :
    Canonical mantissa exponent := by
  unfold compose at h
  split at h
  · split at h <;> cases h
  split at h
  · cases h
    exact ⟨by omega, by omega, by omega, .inr rfl⟩
  · rename_i notTop notZero
    cases h
    simp only [beq_iff_eq] at notTop notZero
    have lead : leadingBit = 2 ^ 52 := rfl
    exact ⟨by omega, by omega, by omega, .inl (by omega)⟩

theorem canonical_of_unpack {b : BitVec 64} {s : Sign} {m : Nat} {e : Int} {positive : 0 < m}
    (h : UnpackedFloat.unpack .binary64 b = .finite s m e positive) : Canonical m e := by
  have stored := reading_unpack b
  rw [h] at stored
  exact canonical_compose (BitVec.isLt _) (BitVec.isLt _) stored.symm

theorem reading_pack_finite {s : Sign} {m : Nat} {e : Int} {positive : 0 < m}
    (canonical : Canonical m e) :
    reading (UnpackedFloat.unpack .binary64
      (UnpackedFloat.pack .binary64 (.finite s m e positive))) = .finite (isNegative s) m e := by
  obtain ⟨fits, low, high, normal⟩ := canonical
  have bits : m.log2 + 1 = Format.binary64.mantissaBits ↔ 2 ^ 52 ≤ m := by
    rw [show Format.binary64.mantissaBits = 52 + 1 from rfl, Nat.succ_inj,
      Nat.log2_eq_iff (Nat.pos_iff_ne_zero.mp positive)]
    omega
  have biased : (e + Format.binary64.exponentBias +
      Format.binary64.mantissaBitsWithoutImplicit).toNat = (e + 1075).toNat := by
    simp [Format.exponentBias]
    omega
  have lead : leadingBit = 2 ^ 52 := rfl
  unfold UnpackedFloat.pack
  dsimp only
  rw [biased, if_neg (by simp; omega)]
  split
  · rename_i full
    rw [bits] at full
    rw [reading_packComponents]
    have biased : (BitVec.ofNat 11 (e + 1075).toNat).toNat = (e + 1075).toNat := by
      rw [BitVec.toNat_ofNat, Nat.mod_eq_of_lt (by omega)]
    have fraction : (BitVec.ofNat 52 m).toNat + leadingBit = m := by
      rw [BitVec.toNat_ofNat]
      omega
    unfold compose
    rw [biased, fraction, if_neg (by simp; omega), if_neg (by simp; omega)]
    congr 1
    omega
  · rename_i partial_
    rw [bits] at partial_
    rw [reading_packComponents]
    obtain rfl := normal.resolve_left partial_
    unfold compose
    rw [BitVec.toNat_ofNat, BitVec.toNat_ofNat, Nat.mod_eq_of_lt (by omega : m < 2 ^ 52)]
    rfl

theorem reading_pack_beyond {s : Sign} {m : Nat} {e : Int} {positive : 0 < m} (beyond : 971 < e) :
    reading (UnpackedFloat.unpack .binary64
      (UnpackedFloat.pack .binary64 (.finite s m e positive))) = .infinite (isNegative s) := by
  have biased : 2 ^ Format.binary64.exponentBits ≤ (e + Format.binary64.exponentBias +
      Format.binary64.mantissaBitsWithoutImplicit).toNat + 1 := by
    simp [Format.exponentBias]
    omega
  unfold UnpackedFloat.pack
  dsimp only
  rw [if_pos biased]
  exact reading_packComponents s _ _

theorem reading_repack (b : BitVec 64) :
    reading (UnpackedFloat.unpack .binary64
      (UnpackedFloat.pack .binary64 (UnpackedFloat.unpack .binary64 b))) =
    reading (UnpackedFloat.unpack .binary64 b) := by
  cases h : UnpackedFloat.unpack .binary64 b with
  | notANumber => rfl
  | infinity s => cases s <;> rfl
  | zero s => cases s <;> rfl
  | finite s m e positive => exact reading_pack_finite (canonical_of_unpack h)

/-- A float is put together from its fields. -/
theorem unpack_packBits (negative : Bool) {magnitude : Nat} (small : magnitude < 2 ^ 63) :
    unpack (packBits negative magnitude) =
      compose negative (magnitude / leadingBit) (magnitude % leadingBit) := by
  have lead : leadingBit = 2 ^ 52 := rfl
  have size : UInt64.size = 2 ^ 64 := rfl
  unfold packBits
  rw [unpack_eq]
  change reading (UnpackedFloat.unpack .binary64 (UnpackedFloat.pack .binary64
    (UnpackedFloat.unpack .binary64 (UInt64.ofNat _).toBitVec))) = _
  rw [reading_repack, reading_unpack, isNegative_ofBitVec, toNat_unpackSign, toNat_unpackExponent,
    toNat_unpackMantissa, lead, UInt64.toNat_toBitVec, Nat.shiftRight_eq_div_pow,
    Nat.shiftRight_eq_div_pow]
  cases negative with
  | false =>
    rw [UInt64.toNat_ofNat_of_lt' (by simp; omega), Nat.div_eq_of_lt (by simpa using small)]
    congr 1
    · simp
      omega
    · simp
  | true =>
    have bits : (if true = true then 1 <<< 63 else 0) + magnitude = 2 ^ 63 + magnitude := rfl
    rw [bits, UInt64.toNat_ofNat_of_lt' (by simp; omega)]
    congr 1
    · simp
      omega
    · omega
    · omega

/-! ## Floats that are not finite

There is one float of each kind. -/

theorem toBits_inj {f g : Float} (h : f.toBits = g.toBits) : f = g := by
  obtain ⟨⟨bits, valid⟩⟩ := f
  obtain ⟨⟨bits', valid'⟩⟩ := g
  obtain rfl : bits = bits' := h
  rfl

theorem eq_infinity {f : Float} {negative : Bool} (h : unpack f = .infinite negative) :
    f = infinity negative := by
  have stored : compose (f.toBits.toNat >>> 63 == 1) (f.toBits.toNat >>> 52 % 2048)
      (f.toBits.toNat % leadingBit) = .infinite negative := h
  unfold compose at stored
  split at stored
  · rename_i top
    split at stored
    · rename_i blank
      obtain rfl := Unpacked.infinite.inj stored
      have small := f.toBits.toNat_lt
      have lead : leadingBit = 2 ^ 52 := rfl
      simp only [beq_iff_eq, Nat.shiftRight_eq_div_pow, lead] at top blank ⊢
      refine toBits_inj (UInt64.toNat_inj.mp ?_)
      by_cases sign : f.toBits.toNat / 2 ^ 63 = 1
      · rw [sign]
        have bits : (infinity true).toBits.toNat = 2 ^ 63 + 2047 * 2 ^ 52 := by rfl
        exact Eq.trans (by omega) bits.symm
      · have bits : (infinity false).toBits.toNat = 2047 * 2 ^ 52 := by rfl
        rw [beq_eq_false_iff_ne.mpr sign, bits]
        omega
    · cases stored
  · split at stored <;> cases stored

theorem eq_nan {f : Float} (h : unpack f = .nan) : f = nan := by
  have stored : compose (f.toBits.toNat >>> 63 == 1) (f.toBits.toNat >>> 52 % 2048)
      (f.toBits.toNat % leadingBit) = .nan := h
  unfold compose at stored
  split at stored
  · rename_i top
    split at stored
    · cases stored
    · rename_i fraction
      have packed : f.toBits.toBitVec = packedNaN .binary64 := by
        refine f.toModel.valid.eq_packedNaN ?_ fun blank => ?_
        · refine BitVec.eq_of_toNat_eq ((toNat_unpackExponent _).trans ?_)
          exact of_decide_eq_true top
        · have none_ := (toNat_unpackMantissa f.toBits.toBitVec).symm.trans (congrArg _ blank)
          exact fraction (decide_eq_true none_)
      refine toBits_inj (UInt64.toBitVec_inj.mp (packed.trans ?_))
      rfl
  · split at stored <;> cases stored

end ChipEight.Number
