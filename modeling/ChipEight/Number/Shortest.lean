import ChipEight.Number.Binary64
/-!
The shortest decimal that reads back as a given float, and decimals with a fixed number of places.
Both are computed on exact integers, so no step rounds but the one that is asked for.
-/

namespace ChipEight.Number

/-- A positive decimal `0.d₁d₂… * 10^point`. -/
structure Decimal where
  digits : List Char
  point : Int
  deriving DecidableEq, Repr

/-- The ratio `num * 10^shift / den` as a numerator and a denominator. -/
def scaleTen (num den : Nat) (shift : Int) : Nat × Nat :=
  if 0 ≤ shift then (num * Nat.pow 10 shift.toNat, den)
  else (num, den * Nat.pow 10 (-shift).toNat)

/-- The `k` with `10^k ≤ num / den < 10^(k+1)`. -/
def orderOfMagnitude (num den : Nat) : Int :=
  let guess : Int := (((num.log2 : Int) - den.log2) * 30103).fdiv 100000 - 1
  let atLeast (k : Int) : Bool := let (n, d) := scaleTen num den (-k); d ≤ n
  if atLeast (guess + 2) then guess + 2 else if atLeast (guess + 1) then guess + 1 else guess

/-- Of the two neighbours of the value on the grid of `n` digits, the one that lies among the
reals that round to `mantissa * 2^exponent`; of two such the nearer, at equal distance the even. -/
def neighbour? (mantissa : Nat) (exponent : Int) (k : Int) (n : Nat) : Option Nat :=
  let lowGap := if mantissa == leadingBit && -1074 < exponent then 1 else 2
  -- four times the value and the ends of its interval, in units of the grid
  let unit (m : Nat) : Nat × Nat :=
    let (a, b) := scale m 4 exponent
    scaleTen a b (n - 1 - k)
  let (v, d) := unit (4 * mantissa)
  let (low, _) := unit (4 * mantissa - lowGap)
  let (high, _) := unit (4 * mantissa + 2)
  let closed := mantissa % 2 == 0
  let inside (x : Nat) : Bool :=
    if closed then low ≤ x * d && x * d ≤ high else low < x * d && x * d < high
  let below := v / d
  let above := below + 1
  match inside below, inside above with
  | true, false => some below
  | false, true => some above
  | false, false => none
  | true, true =>
    let toBelow := v - below * d
    let toAbove := above * d - v
    if toBelow < toAbove then some below
    else if toAbove < toBelow then some above
    else some (below + below % 2)

/-- The fewest digits that read back, tried from `n` up. -/
def shortestFrom (mantissa : Nat) (exponent k : Int) : Nat → Nat → Nat × Nat
  | 0, n => (0, n)
  | fuel + 1, n =>
    match neighbour? mantissa exponent k n with
    | some d => (d, n)
    | none => shortestFrom mantissa exponent k fuel (n + 1)

/-- The shortest decimal of `mantissa * 2^exponent`, a value above zero.  Seventeen digits
always suffice. -/
def shortest (mantissa : Nat) (exponent : Int) : Decimal :=
  let (num, den) := scale mantissa 1 exponent
  let k := orderOfMagnitude num den
  let (d, n) := shortestFrom mantissa exponent k 17 1
  let text := (toString d).toList
  -- rounding up to a power of ten adds a digit
  let carried : Int := text.length - n
  { digits := (text.reverse.dropWhile (· == '0')).reverse, point := k + 1 + carried }

/-- Positional for exponents from -4 to 15, else scientific with a signed exponent of at least two
digits; a positional whole number keeps `.0`. -/
def Decimal.render (d : Decimal) : String :=
  let exponent := d.point - 1
  let count : Int := d.digits.length
  if -4 ≤ exponent && exponent < 16 then
    if d.point ≤ 0 then
      "0." ++ String.ofList (List.replicate (-d.point).toNat '0' ++ d.digits)
    else if count ≤ d.point then
      String.ofList (d.digits ++ List.replicate (d.point - count).toNat '0') ++ ".0"
    else
      String.ofList (d.digits.take d.point.toNat) ++ "." ++
        String.ofList (d.digits.drop d.point.toNat)
  else
    let lead := match d.digits with
      | [] => "0"
      | [c] => String.singleton c
      | c :: rest => String.singleton c ++ "." ++ String.ofList rest
    let size := exponent.natAbs
    lead ++ "e" ++ (if exponent < 0 then "-" else "+") ++
      (if size < 10 then "0" else "") ++ toString size

/-- The text of a float: shortest digits that read back. -/
def floatText (f : Float) : String :=
  match unpack f with
  | .nan => "nan"
  | .infinite negative => if negative then "-inf" else "inf"
  | .finite negative mantissa exponent =>
    (if negative then "-" else "") ++
      (if mantissa == 0 then "0.0" else (shortest mantissa exponent).render)

/-- A float with exactly `places` decimal places, halves going to the even neighbour. -/
def fixedText (places : Nat) (f : Float) : String :=
  match unpack f with
  | .nan => "nan"
  | .infinite negative => if negative then "-inf" else "inf"
  | .finite negative mantissa exponent =>
    let (num, den) := scale (mantissa * Nat.pow 10 places) 1 exponent
    let scaled := (toString (roundHalfEven num den)).toList
    let padded := List.replicate (places + 1 - scaled.length) '0' ++ scaled
    let whole := padded.take (padded.length - places)
    let part := padded.drop (padded.length - places)
    (if negative then "-" else "") ++ String.ofList whole ++
      (if places == 0 then "" else "." ++ String.ofList part)

end ChipEight.Number
