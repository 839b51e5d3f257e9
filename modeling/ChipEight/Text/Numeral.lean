/-!
Reading integers the way people type them: blanks around, a sign, a radix mark such as `0x`,
single underscores between digits, and the decimal digits of every script.
-/

namespace ChipEight.Text

/-- The zeros of the decimal digits outside ASCII; one to nine follow each. -/
def decimalZeros : List Nat := [
  1632, 1776, 1984, 2406, 2534, 2662, 2790, 2918, 3046, 3174, 3302, 3430, 3558, 3664, 3792,
  3872, 4160, 4240, 6112, 6160, 6470, 6608, 6784, 6800, 6992, 7088, 7232, 7248, 42528, 43216,
  43264, 43472, 43504, 43600, 44016, 65296, 66720, 68912, 69734, 69872, 69942, 70096, 70384,
  70736, 70864, 71248, 71360, 71472, 71904, 72016, 72784, 73040, 73120, 92768, 92864, 93008,
  120782, 120792, 120802, 120812, 120822, 123200, 123632, 125264, 130032]

/-- The value of a decimal digit of any script. -/
def decimalValue? (c : Char) : Option Nat :=
  let n := c.toNat
  if n < 128 then if c.isDigit then some (n - 48) else none
  else (decimalZeros.find? fun z => z ≤ n && n < z + 10).map (n - ·)

/-- The blanks that may surround a number. -/
def isBlank (c : Char) : Bool :=
  let n := c.toNat
  (9 ≤ n && n ≤ 13) || n == 32 || n == 0x85 || n == 0xa0 || n == 0x1680 ||
    (0x2000 ≤ n && n ≤ 0x200a) || n == 0x2028 || n == 0x2029 || n == 0x202f || n == 0x205f ||
    n == 0x3000

/-- The value of a digit in radixes up to 36, letters in either case. -/
def digitValue? (c : Char) : Option Nat :=
  match decimalValue? c with
  | some v => some v
  | none =>
    if 'a' ≤ c && c ≤ 'z' then some (c.toNat - 87)
    else if 'A' ≤ c && c ≤ 'Z' then some (c.toNat - 55)
    else none

/-- A run of digits; an underscore may stand between two of them. -/
def digitsValue? (radix : Nat) : Nat → List Char → Option Nat
  | acc, [] => some acc
  | acc, '_' :: c :: rest =>
    match digitValue? c with
    | some v => if v < radix then digitsValue? radix (acc * radix + v) rest else none
    | none => none
  | acc, c :: rest =>
    match digitValue? c with
    | some v => if v < radix then digitsValue? radix (acc * radix + v) rest else none
    | none => none

/-- Drops the mark `0x` of radix 16; an underscore may follow the mark. -/
def dropRadixMark (radix : Nat) : List Char → List Char
  | '0' :: x :: '_' :: rest =>
    if radix == 16 && (x == 'x' || x == 'X') then rest else '0' :: x :: '_' :: rest
  | '0' :: x :: rest => if radix == 16 && (x == 'x' || x == 'X') then rest else '0' :: x :: rest
  | cs => cs

/-- An integer in the given radix, or `none` if the text is not one. -/
def parseInt? (radix : Nat) (s : String) : Option Int :=
  let plain := s.toList.map fun c => ((decimalValue? c).map fun v => Char.ofNat (48 + v)).getD c
  let trimmed := ((plain.dropWhile isBlank).reverse.dropWhile isBlank).reverse
  let (negative, body) := match trimmed with
    | '-' :: rest => (true, rest)
    | '+' :: rest => (false, rest)
    | cs => (false, cs)
  let digits := dropRadixMark radix body
  -- the first character is a digit: neither an underscore nor nothing
  match digits with
  | [] => none
  | '_' :: _ => none
  | cs => (digitsValue? radix 0 cs).map fun n => if negative then -(n : Int) else n

end ChipEight.Text
