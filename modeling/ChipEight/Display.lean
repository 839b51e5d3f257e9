import ChipEight.Failure
import ChipEight.Journal
/-!
The display: a grid of pixels that sprites are drawn onto by exclusive or, wrapping around both
edges.  Every draw and every clear marks the display dirty; only the host marks it clean.
-/

namespace ChipEight

structure Grid where
  width : Nat
  height : Nat
  /-- Row by row from the top. -/
  cells : Array Bool
  size_cells : cells.size = width * height := by simp
  deriving DecidableEq

namespace Grid

def blank (width height : Nat) : Grid :=
  { width, height, cells := Array.replicate (width * height) false }

instance : Inhabited Grid := ⟨blank 0 0⟩

instance : Repr Grid := ⟨fun g _ => repr (g.width, g.height, g.cells)⟩

/-- The pixel in column `x` of row `y`; dark outside the grid. -/
def get (g : Grid) (x y : Nat) : Bool := g.cells.getD (y * g.width + x) false

/-- Inverts one pixel. -/
def flip (g : Grid) (x y : Nat) : Grid where
  width := g.width
  height := g.height
  cells := g.cells.modify (y * g.width + x) not
  size_cells := by simp [g.size_cells]

def lit (g : Grid) : Nat := g.cells.count true

def row (g : Grid) (y : Nat) : List Bool :=
  (g.cells.extract (y * g.width) ((y + 1) * g.width)).toList

def rows (g : Grid) : List (List Bool) := (List.range g.height).map g.row

/-- One line of text for each row, without an end of line behind the last. -/
def render (g : Grid) (on off : String) : String :=
  "\n".intercalate (g.rows.map fun r => String.join (r.map fun lit => if lit then on else off))

end Grid

def spriteWidth : Nat := 8

def defaultWidth : Nat := 64

def defaultHeight : Nat := 32

structure Display where
  grid : Grid
  dirty : Bool
  draws : Nat
  clears : Nat
  deriving DecidableEq, Repr, Inhabited

namespace Display

def create (width height : Int) : Except Failure Display :=
  if width < 0 ∨ height < 0 then .error (.badValue .negativeDimensions)
  else .ok ⟨Grid.blank width.toNat height.toNat, false, 0, 0⟩

def createNotes (d : Display) : List Record :=
  [⟨.info, .display, s!"Display initialized ({d.grid.width}x{d.grid.height})"⟩]

def clear (d : Display) : Display :=
  { d with grid := Grid.blank d.grid.width d.grid.height, dirty := true, clears := d.clears + 1 }

/-- Whether bit `col` of a sprite row is set, counted from the left. -/
def spriteBit (byte : Int) (col : Nat) : Bool := (byte >>> (7 - col)) % 2 == 1

/-- Inverts a pixel and remembers whether it was lit. -/
def toggle : Grid × Bool → Nat → Nat → Grid × Bool
  | (g, hit), x, y =>
    let lit := g.get x y
    (g.flip x y, hit || lit)

/-- Draws the columns of one sprite row into row `py`. -/
def drawColumns (x : Int) (py : Nat) (byte : Int) (s : Grid × Bool) : Grid × Bool :=
  (List.range spriteWidth).foldl
    (fun s col =>
      if spriteBit byte col then toggle s ((x + col) % s.1.width).toNat py else s) s

/-- Draws sprite rows one below the other, the first in row `y`. -/
def drawRows (x : Int) : Int → List Int → Grid × Bool → Grid × Bool
  | _, [], s => s
  | y, byte :: rest, s =>
    drawRows x (y + 1) rest (drawColumns x (y % s.1.height).toNat byte s)

/-- A sprite has no place on a display without rows, and its set bits none on one without
columns. -/
def placeable (g : Grid) (sprite : List Int) : Bool :=
  sprite.isEmpty ||
    (g.height != 0 && (g.width != 0 || sprite.all fun byte => byte % 256 == 0))

/-- Draws a sprite with its top left corner at `(x, y)`.  The answer tells whether a lit pixel was
turned off. -/
def drawSprite (d : Display) (x y : Int) (sprite : List Int) : Except Failure (Display × Bool) :=
  if placeable d.grid sprite then
    let (grid, collision) := drawRows x y sprite (d.grid, false)
    .ok ({ d with grid, dirty := true, draws := d.draws + 1 }, collision)
  else .error .divisionByZero

def getPixel (d : Display) (x y : Int) : Except Failure Bool :=
  if d.grid.height = 0 ∨ d.grid.width = 0 then .error .divisionByZero
  else .ok (d.grid.get (x % d.grid.width).toNat (y % d.grid.height).toNat)

def markClean (d : Display) : Display := { d with dirty := false }

def toAscii (d : Display) (on off : String) : String := d.grid.render on off

def reset (d : Display) : Display := ⟨Grid.blank d.grid.width d.grid.height, true, 0, 0⟩

end Display
end ChipEight
