/-!
Binary64 values as exact integers scaled by powers of two, and rounding back to nearest, ties to
even.  `nearest` is the one way from an exact ratio to a float; reading a float apart with
`unpack` is the one way back.
-/

namespace ChipEight.Number

/-- What a float stands for: `(-1)^negative * mantissa * 2^exponent`, an infinity, or no number. -/
inductive Unpacked where
  | finite (negative : Bool) (mantissa : Nat) (exponent : Int)
  | infinite (negative : Bool)
  | nan
  deriving DecidableEq, Repr

/-- The bit in front of the 52 that a normal float stores of its mantissa. -/
def leadingBit : Nat := 1 <<< 52

def unpack (f : Float) : Unpacked :=
  let bits := f.toBits.toNat
  let negative := bits >>> 63 == 1
  let biased : Nat := (bits >>> 52) % 2048
  let fraction := bits % leadingBit
  if biased == 2047 then
    if fraction == 0 then .infinite negative else .nan
  else if biased == 0 then .finite negative fraction (-1074)
  else .finite negative (fraction + leadingBit) ((biased : Int) - 1075)

/-- The sign bit over the remaining 63 bits. -/
def packBits (negative : Bool) (magnitude : Nat) : Float :=
  Float.ofBits (UInt64.ofNat ((if negative then 1 <<< 63 else 0) + magnitude))

def infinity (negative : Bool) : Float := packBits negative (2047 * leadingBit)

def nan : Float := packBits false (2047 * leadingBit + leadingBit / 2)

/-- The integer nearest to `num / den`; of two equally near ones the even one. -/
def roundHalfEven (num den : Nat) : Nat :=
  let q := num / den
  let twice := 2 * (num % den)
  if twice < den then q
  else if den < twice then q + 1
  else q + q % 2

/-- The ratio `num * 2^shift / den` as a numerator and a denominator. -/
def scale (num den : Nat) (shift : Int) : Nat × Nat :=
  if 0 ≤ shift then (num <<< shift.toNat, den) else (num, den <<< (-shift).toNat)

/-- The float nearest to `(-1)^negative * num / den`, or `none` when that is beyond the largest
finite one. -/
def nearest (negative : Bool) (num den : Nat) : Option Float :=
  if num == 0 || den == 0 then some (packBits negative 0)
  else
    -- 2^guess is at most twice and more than half of the ratio, so one step up fixes it
    let guess : Int := (num.log2 : Int) - den.log2
    let top := if (scale num den (-guess)).1 < (scale num den (-guess)).2 then guess - 1 else guess
    let exponent := max (-1074) (top - 52)
    let (n, d) := scale num den (-exponent)
    let mantissa := roundHalfEven n d
    let (mantissa, exponent) :=
      if mantissa == 2 * leadingBit then (leadingBit, exponent + 1) else (mantissa, exponent)
    if 971 < exponent then none
    else if mantissa < leadingBit then some (packBits negative mantissa)
    else some (packBits negative ((exponent + 1075).toNat * leadingBit + (mantissa - leadingBit)))

/-- The float nearest to an integer, if the integer is within range. -/
def floatOfInt? (i : Int) : Option Float := nearest (i < 0) i.natAbs 1

/-- The integer part of a finite float, the fraction dropped. -/
def truncate? (f : Float) : Option Int :=
  match unpack f with
  | .finite negative mantissa exponent =>
    let magnitude :=
      if 0 ≤ exponent then mantissa <<< exponent.toNat else mantissa >>> (-exponent).toNat
    some (if negative then -(magnitude : Int) else magnitude)
  | _ => none

/-- The exact remainder of `x / y`, with the sign of `x`. -/
def remainder (x y : Float) : Float :=
  match unpack x, unpack y with
  | .finite negative mx ex, .finite _ my ey =>
    if my == 0 then nan
    else
      let low := min ex ey
      let m := (mx <<< (ex - low).toNat) % (my <<< (ey - low).toNat)
      let (n, d) := scale m 1 low
      (nearest negative n d).getD nan
  | .finite .., .infinite _ => x
  | _, _ => nan

/-- The greatest whole number that is not above a float. -/
def floor (f : Float) : Float :=
  match unpack f with
  | .finite negative mantissa exponent =>
    if 0 ≤ exponent then f
    else
      let unit := 1 <<< (-exponent).toNat
      let whole := if negative then (mantissa + unit - 1) / unit else mantissa / unit
      (nearest negative whole 1).getD f
  | _ => f

/-- The floor of `x / y` for a `y` other than zero, computed from the exact remainder so that
`floorQuotient x y * y` never passes `x` by more than rounding. -/
def floorQuotient (x y : Float) : Float :=
  let m := remainder x y
  let d := (x - m) / y
  let d := if m != 0.0 && (y < 0.0) != (m < 0.0) then d - 1.0 else d
  if d != 0.0 then
    let q := floor d
    if d - q > 0.5 then q + 1.0 else q
  else 0.0

end ChipEight.Number
