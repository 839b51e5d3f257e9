import ChipEight.Number.Decimal
import ChipEight.Text.Numeral
/-!
Reading floats the way people type them: blanks around, a sign, a decimal point, an exponent,
single underscores between digits, the decimal digits of every script, and words for infinity and
for what is no number.
-/

namespace ChipEight.Text

/-- Drops each underscore that stands between two digits. -/
def joinDigits : List Char → List Char
  | a :: '_' :: b :: rest =>
    if a.isDigit && b.isDigit then a :: joinDigits (b :: rest)
    else a :: '_' :: joinDigits (b :: rest)
  | c :: rest => c :: joinDigits rest
  | [] => []

/-- An exponent with its mark, or nothing. -/
def exponentValue? : List Char → Option Int
  | [] => some 0
  | e :: rest =>
    let (negative, ds) := match rest with
      | '-' :: ds => (true, ds)
      | '+' :: ds => (false, ds)
      | ds => (false, ds)
    if (e == 'e' || e == 'E') && !ds.isEmpty && ds.all Char.isDigit then
      some (if negative then -(Number.ofDigits ds : Int) else Number.ofDigits ds)
    else none

/-- A decimal without its sign. -/
def decimalText? (negative : Bool) (cs : List Char) : Option Float :=
  let whole := cs.takeWhile Char.isDigit
  let (part, rest) := match cs.drop whole.length with
    | '.' :: rest => (rest.takeWhile Char.isDigit, rest.dropWhile Char.isDigit)
    | rest => ([], rest)
  if whole.isEmpty && part.isEmpty then none
  else
    (exponentValue? rest).map fun e =>
      Number.floatOfDecimal negative (Number.ofDigits (whole ++ part)) (e - part.length)

/-- A float, or `none` if the text is not one. -/
def parseFloat? (s : String) : Option Float :=
  let plain := s.toList.map fun c => ((decimalValue? c).map fun v => Char.ofNat (48 + v)).getD c
  let trimmed := ((plain.dropWhile isBlank).reverse.dropWhile isBlank).reverse
  let (negative, body) := match trimmed with
    | '-' :: rest => (true, rest)
    | '+' :: rest => (false, rest)
    | cs => (false, cs)
  let word := String.ofList (body.map Char.toLower)
  if word == "inf" || word == "infinity" then some (Number.infinity negative)
  else if word == "nan" then some Number.nan
  else decimalText? negative (joinDigits body)

end ChipEight.Text
