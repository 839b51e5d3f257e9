import ChipEight.Number.Shortest
/-!
Numbers as configurations and hosts give them: an integer of any size or a float.  Comparisons
between the two kinds are exact; arithmetic moves to floats as soon as one operand is one.
-/

namespace ChipEight

inductive Number where
  | int (i : Int)
  | float (f : Float)
  deriving Inhabited, Repr

namespace Number

def text : Number → String
  | .int i => toString i
  | .float f => floatText f

/-- The float nearest to a number; `none` for an integer beyond every float. -/
def toFloat? : Number → Option Float
  | .int i => floatOfInt? i
  | .float f => some f

/-- How an integer compares with a float, `none` for no number. -/
def compareIntFloat (i : Int) (f : Float) : Option Ordering :=
  match unpack f with
  | .nan => none
  | .infinite negative => some (if negative then .gt else .lt)
  | .finite negative mantissa exponent =>
    let (num, den) := scale mantissa 1 exponent
    some (compare (i * den) (if negative then -(num : Int) else num))

def compare? : Number → Number → Option Ordering
  | .int a, .int b => some (compare a b)
  | .float a, .float b =>
    if a < b then some .lt else if b < a then some .gt else if a == b then some .eq else none
  | .int a, .float b => compareIntFloat a b
  | .float a, .int b => (compareIntFloat b a).map Ordering.swap

def lt (a b : Number) : Bool := compare? a b == some .lt
def le (a b : Number) : Bool := compare? a b == some .lt || compare? a b == some .eq
def same (a b : Number) : Bool := compare? a b == some .eq

/-- `none` when an integer operand is beyond every float. -/
def sub? : Number → Number → Option Number
  | .int a, .int b => some (.int (a - b))
  | a, b => do
    let x ← a.toFloat?
    let y ← b.toFloat?
    return .float (x - y)

def mul? : Number → Number → Option Number
  | .int a, .int b => some (.int (a * b))
  | a, b => do
    let x ← a.toFloat?
    let y ← b.toFloat?
    return .float (x * y)

def abs : Number → Number
  | .int a => .int a.natAbs
  | .float f => .float f.abs

def isZero (a : Number) : Bool := same a (.int 0)

/-- The machine words of the host reach from minus this up to, but not including, this. -/
def wordLimit : Int := 0x8000000000000000

end Number

/-- There are sixteen hexadecimal digits; the registers and the keys are numbered with them. -/
instance neZeroSixteen : @NeZero Nat Zero.ofOfNat0 16 := ⟨by decide⟩

/-- An integer in upper-case hexadecimal, filled with zeros after the sign to `width` characters. -/
def hexText (width : Nat) (i : Int) : String :=
  let digits := (Nat.toDigits 16 i.natAbs).map Char.toUpper
  if i < 0 then String.ofList ('-' :: List.replicate (width - 1 - digits.length) '0' ++ digits)
  else String.ofList (List.replicate (width - digits.length) '0' ++ digits)

end ChipEight
