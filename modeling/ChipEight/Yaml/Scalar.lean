import ChipEight.Datum
import ChipEight.Number.Decimal
/-!
What a plain scalar of YAML 1.1 stands for: null, a truth value, an integer in one of five
spellings, a float, or else its own text.
-/

namespace ChipEight.Yaml

def nullWords : List String := ["", "~", "null", "Null", "NULL"]

def trueWords : List String := ["yes", "Yes", "YES", "true", "True", "TRUE", "on", "On", "ON"]

def falseWords : List String := ["no", "No", "NO", "false", "False", "FALSE", "off", "Off", "OFF"]

/-- Whether a sign was a minus, and what follows the sign. -/
def splitSign : List Char → Bool × List Char
  | '-' :: rest => (true, rest)
  | '+' :: rest => (false, rest)
  | cs => (false, cs)

def dropUnderscores (cs : List Char) : List Char := cs.filter (· != '_')

def isDigitOrGap (c : Char) : Bool := c.isDigit || c == '_'

def isHex (c : Char) : Bool :=
  c.isDigit || ('a' ≤ c && c ≤ 'f') || ('A' ≤ c && c ≤ 'F')

def digitValue (c : Char) : Nat :=
  if c.isDigit then c.toNat - 48 else if c.toNat < 97 then c.toNat - 55 else c.toNat - 87

def inRadix (radix : Nat) (cs : List Char) : Nat :=
  (dropUnderscores cs).foldl (fun n c => n * radix + digitValue c) 0

/-- A digit or two for a sixtieth part. -/
def isSixtieth : List Char → Bool
  | [a] => a.isDigit
  | [a, b] => '0' ≤ a && a ≤ '5' && b.isDigit
  | _ => false

/-- The parts between colons. -/
def colonParts (cs : List Char) : List (List Char) :=
  (String.ofList cs).splitOn ":" |>.map String.toList

def sexagesimal (parts : List (List Char)) : Nat :=
  parts.foldl (fun n p => n * 60 + inRadix 10 p) 0

/-- An integer without its sign. -/
def natural? (cs : List Char) : Option Nat :=
  match cs with
  | '0' :: 'b' :: ds =>
    if !ds.isEmpty && ds.all (fun c => c == '0' || c == '1' || c == '_') then some (inRadix 2 ds)
    else none
  | '0' :: 'x' :: ds =>
    if !ds.isEmpty && ds.all (fun c => isHex c || c == '_') then some (inRadix 16 ds) else none
  | '0' :: ds =>
    if ds.all (fun c => ('0' ≤ c && c ≤ '7') || c == '_') then some (inRadix 8 ds) else none
  | c :: ds =>
    if !c.isDigit then none
    else if ds.all isDigitOrGap then some (inRadix 10 cs)
    else
      match colonParts cs with
      | first :: second :: rest =>
        if first.all isDigitOrGap && (second :: rest).all isSixtieth then
          some (sexagesimal (first :: second :: rest))
        else none
      | _ => none
  | [] => none

/-- An exponent with its sign, to the end. -/
def exponent? : List Char → Option Int
  | [] => some 0
  | e :: s :: ds =>
    if (e == 'e' || e == 'E') && (s == '-' || s == '+') && !ds.isEmpty && ds.all Char.isDigit then
      let n := Number.ofDigits ds
      some (if s == '-' then -(n : Int) else n)
    else none
  | _ => none

/-- A decimal with a point, its whole part given; `whole` may be empty. -/
def decimal? (negative : Bool) (whole rest : List Char) : Option Float :=
  let part := rest.takeWhile isDigitOrGap
  (exponent? (rest.drop part.length)).map fun e =>
    let digits := dropUnderscores part
    Number.floatOfDecimal negative (Number.ofDigits (dropUnderscores whole ++ digits))
      (e - digits.length)

/-- A float with its sign split off; `signed` says that there was a sign. -/
def float? (signed negative : Bool) (cs : List Char) : Option Float :=
  match cs with
  | '.' :: rest =>
    let word := String.ofList rest
    if word == "inf" || word == "Inf" || word == "INF" then some (Number.infinity negative)
    else if signed then none
    else if word == "nan" || word == "NaN" || word == "NAN" then some Number.nan
    else
      match rest with
      | c :: _ => if c.isDigit then decimal? negative [] rest else none
      | [] => none
  | c :: _ =>
    if !c.isDigit then none
    else
      let whole := cs.takeWhile isDigitOrGap
      match cs.drop whole.length with
      | '.' :: rest => decimal? negative whole rest
      | ':' :: _ =>
        let parts := colonParts (cs.takeWhile (· != '.'))
        match parts, cs.dropWhile (· != '.') with
        | first :: sixtieths, '.' :: tail =>
          if first.all isDigitOrGap && sixtieths.all isSixtieth && tail.all isDigitOrGap then
            let digits := dropUnderscores tail
            let n := sexagesimal parts * Nat.pow 10 digits.length + Number.ofDigits digits
            some (Number.floatOfDecimal negative n (-(digits.length : Int)))
          else none
        | _, _ => none
      | _ => none
  | [] => none

/-- What a plain scalar stands for. -/
def resolve (s : String) : Datum :=
  if nullWords.contains s then .null
  else if trueWords.contains s then .bool true
  else if falseWords.contains s then .bool false
  else
    let cs := s.toList
    let (negative, rest) := splitSign cs
    match natural? rest with
    | some n => .int (if negative then -(n : Int) else n)
    | none =>
      match float? (rest.length != cs.length) negative rest with
      | some f => .number (.float f)
      | none => .text s

end ChipEight.Yaml
