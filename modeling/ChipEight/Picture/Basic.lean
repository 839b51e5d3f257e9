import ChipEight.Text.Quoted
/-!
Pictures: a number of pixels in both directions, evenly covered by a grid of colored cells.
-/

namespace ChipEight

structure Color where
  red : UInt8
  green : UInt8
  blue : UInt8
  deriving DecidableEq, Repr, Inhabited

namespace Color

/-- A color from its hexadecimal spelling as a number. -/
def ofNat (n : Nat) : Color :=
  ⟨UInt8.ofNat (n / 65536), UInt8.ofNat (n / 256), UInt8.ofNat n⟩

def white : Color := ofNat 0xffffff

/-- A mark and two hexadecimal digits for each component. -/
def text (c : Color) : String :=
  String.ofList ('#' :: [c.red, c.green, c.blue].flatMap fun v => Text.hexDigits 2 v.toNat)

end Color

structure Picture where
  width : Nat
  height : Nat
  /-- Row by row from the top; each row has the same number of cells. -/
  cells : List (List Color)
  deriving DecidableEq, Repr, Inhabited

namespace Picture

/-- The color of the pixel in column `x` of row `y`: that of the cell which covers it. -/
def pixel (p : Picture) (x y : Nat) : Color :=
  let row := p.cells.getD (y * p.cells.length / p.height) []
  row.getD (x * row.length / p.width) Color.white

end Picture
end ChipEight
