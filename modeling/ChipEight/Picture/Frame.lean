import ChipEight.Display
import ChipEight.Files
import ChipEight.Journal
import ChipEight.Picture.Palette
import ChipEight.Trace.Query
/-!
Pictures of the display, and plots of registers over a trace.  A picture file is as large as a
figure in inches at a resolution in dots, so its size in pixels goes through floats.
-/

namespace ChipEight

/-- How display pixels are painted.  The colors are looked at only when a picture is made. -/
structure FrameStyle where
  scale : Datum := .int 10
  on : Datum := .text "#e0e0ff"
  off : Datum := .text "#1a1a22"
  deriving Repr, Inhabited

/-- The resolution of figures in dots per inch. -/
def defaultResolution : Datum := .int 100

namespace FrameStyle

def create (style : FrameStyle) : Except Failure FrameStyle := do
  if ← style.scale.less (.int 1) then throw (.badValue (.pixelScale style.scale.shown))
  return style

def createNotes : List Record := [⟨.info, .visualizer, "Initialized frame visualizer"⟩]

/-- The quotient of two numbers, for integers the float nearest to the exact one. -/
def quotient (a b : Number) : Except Failure Float :=
  if b.isZero then .error .divisionByZero
  else
    match a, b with
    | .int x, .int y =>
      match Number.nearest (decide ((x < 0) ≠ (y < 0))) x.natAbs y.natAbs with
      | some f => .ok f
      | none => .error .beyondRange
    | a, b =>
      match a.toFloat?, b.toFloat? with
      | some x, some y => .ok (x / y)
      | _, _ => .error .beyondRange

/-- The length in inches of a number of display pixels at a resolution. -/
def inches (style : FrameStyle) (resolution : Number) (count : Nat) : Except Failure Float :=
  match style.scale.amount? with
  | none => .error .wrongKind
  | some scale =>
    match (Number.int count).mul? scale with
    | some length => quotient length resolution
    | none => .error .beyondRange

/-- The whole pixels of a length in inches. -/
def pixels (resolution : Number) (length : Float) : Except Failure Nat :=
  match resolution.toFloat? with
  | none => .error .beyondRange
  | some dots =>
    match Number.truncate? (length * dots) with
    | some n => .ok n.toNat
    | none => .error .beyondRange

/-- The picture of a frame. -/
def paint (style : FrameStyle) (frame : List (List Bool)) (width height : Nat) :
    Except Failure Picture :=
  match Color.ofDatum style.off, Color.ofDatum style.on with
  | .ok off, .ok on =>
    .ok ⟨width, height, frame.map (·.map fun lit => if lit then on else off)⟩
  | .error e, _ | _, .error e => .error (.badValue e)

end FrameStyle

/-- The path of a picture file: a name without an extension gets one. -/
def picturePath (path : String) : Except Failure String :=
  let format := Text.lower (String.ofList ((Files.extension path).toList.drop 1))
  if format.isEmpty then
    .ok (String.ofList (path.toList.reverse.dropWhile (· == '.')).reverse ++ ".png")
  else if imageFormats.contains format then .ok path
  else .error (.badValue (.imageFormat format))

namespace FrameStyle

/-- Writes the picture of a frame to a file, whose directory is made if it is missing; that stays
made also when the picture fails. -/
def save (style : FrameStyle) (frame : List (List Bool)) (fs : Files) (path : String)
    (resolution : Datum) : Files × Except Failure Picture :=
  match fs.makeMissingParent path with
  | .error e => (fs, .error (.file e))
  | .ok made =>
    let result : Except Failure (Files × Picture) := do
      let some dots := resolution.amount? | throw .wrongKind
      let width ← style.inches dots (frame.headD []).length
      let height ← style.inches dots frame.length
      unless width.isFinite && height.isFinite && 0.0 ≤ width && 0.0 ≤ height do
        throw (.badValue (.figureSize width height))
      let name ← picturePath path
      let picture ← style.paint frame (← pixels dots width) (← pixels dots height)
      match made.put name (.image picture) with
      | .ok fs => return (fs, picture)
      | .error e => throw (.file e)
    match result with
    | .ok (fs, picture) => (fs, .ok picture)
    | .error e => (made, .error e)

def saveNotes (path : String) : List Record := [⟨.info, .visualizer, s!"Saved frame to {path}"⟩]

end FrameStyle

/-! ### Plots -/

namespace Trace

/-- The registers that a plot shows. -/
def plotNames : List String := (List.range 8).map fun (i : Nat) => "V" ++ hexText 1 i

/-- The size of a plot: twelve inches by eight. -/
def plotSize : Nat × Nat := (1200, 800)

/-- Plots registers over the cycles of a trace, at most eight of them; says whether there was
anything to plot. -/
def plot (t : Trace) (fs : Files) (path : String) (names : Option (List String)) :
    Files × List Record × Except Failure Bool :=
  if t.history.isEmpty then
    (fs, [⟨.warning, .visualizer, "No trace available for visualization"⟩], .ok false)
  else
    let chosen := names.getD plotNames
    let limited : List Record :=
      if 8 < chosen.length then
        [⟨.info, .visualizer,
          s!"Limiting visualization to first 8 of {chosen.length} registers"⟩]
      else []
    match (chosen.take 8).mapM t.registerArray with
    | .error e => (fs, limited, .error e)
    | .ok series =>
      if series.all fun (cycles, _) => cycles.isEmpty then
        (fs, limited ++ [⟨.warning, .visualizer,
          "None of the requested registers are in the trace"⟩], .ok false)
      else
        let written : Except Failure Files := do
          let name ← picturePath path
          match fs.put name (.image ⟨plotSize.1, plotSize.2, [[Color.white]]⟩) with
          | .ok fs => return fs
          | .error e => throw (Failure.file e)
        match written with
        | .error e => (fs, limited, .error e)
        | .ok fs =>
          (fs, limited ++ [⟨.info, .visualizer, s!"Saved register plot to {path}"⟩], .ok true)

end Trace
end ChipEight
