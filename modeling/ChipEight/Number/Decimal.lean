import ChipEight.Number.Binary64
/-!
From decimals to floats: the nearest float to `mantissa * 10^exponent`.
-/

namespace ChipEight.Number

/-- The float nearest to `(-1)^negative * mantissa * 10^exponent`; beyond all floats an infinity.
Exponents that no digits can make up for are not multiplied out. -/
def floatOfDecimal (negative : Bool) (mantissa : Nat) (exponent : Int) : Float :=
  let order := ((Nat.toDigits 10 mantissa).length : Int) + exponent
  if mantissa == 0 || order < -400 then packBits negative 0
  else if 400 < order then infinity negative
  else
    let (num, den) :=
      if 0 ≤ exponent then (mantissa * Nat.pow 10 exponent.toNat, 1)
      else (mantissa, Nat.pow 10 (-exponent).toNat)
    (nearest negative num den).getD (infinity negative)

/-- The number that a run of ASCII digits spells. -/
def ofDigits (ds : List Char) : Nat := ds.foldl (fun n c => n * 10 + (c.toNat - 48)) 0

end ChipEight.Number
