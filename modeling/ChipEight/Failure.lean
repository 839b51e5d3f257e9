import ChipEight.Fault
import ChipEight.Text.Quoted
/-!
Why an operation gives no answer.  Machine faults are one reason; the others are values that the
operation cannot take, parts that are not connected, and files that cannot be used.
-/

namespace ChipEight

/-- A value of the right kind that the operation has no meaning for. -/
inductive BadValue where
  | timerRate (rate : Number)
  | elapsed (seconds : Number)
  | notANumber
  | keyIndex (key : Number)
  | keyCount (count : Nat)
  | dumpLength
  | negativeSize
  | negativeDimensions
  | byteRange
  | negativeCapacity
  | pixelScale (scale : String)
  | pairLength (position length : Nat)
  | notAnInteger (text : String)
  | notHexadecimal (kind : String)
  /-- Some of `count` values are lists. -/
  | ragged (count : Nat)
  | imageFormat (format : String)
  | color (text : String)
  | grayLevel (text : String)
  /-- A list of neither three nor four components. -/
  | colorLength
  | colorRange
  | figureSize (width height : Float)
  deriving Repr

/-- The image formats that frames and plots can be written in. -/
def imageFormats : List String :=
  ["eps", "jpeg", "jpg", "pdf", "pgf", "png", "ps", "raw", "rgba", "svg", "svgz", "tif", "tiff",
    "webp"]

def BadValue.message : BadValue → String
  | timerRate rate => s!"Timer rate must be positive, got {rate.text}"
  | elapsed seconds => s!"Elapsed time must be non-negative, got {seconds.text}"
  | notANumber => "cannot convert float NaN to integer"
  | keyIndex key => s!"Key index must be in [0, 15], got {key.text}"
  | keyCount count => s!"Expected 16 key states, got {count}"
  | dumpLength => "length must be non-negative"
  | negativeSize => "negative count"
  | negativeDimensions => "negative dimensions are not allowed"
  | byteRange => "byte must be in range(0, 256)"
  | negativeCapacity => "maxlen must be non-negative"
  | pixelScale scale => s!"Pixel scale must be positive, got {scale}"
  | pairLength position length =>
    s!"dictionary update sequence element #{position} has length {length}; 2 is required"
  | notAnInteger text => s!"invalid literal for int() with base 10: {Text.quoted text}"
  | notHexadecimal kind => "Unknown format code 'X' for object of type " ++ Text.quoted kind
  | ragged count =>
    "setting an array element with a sequence. The requested array has an inhomogeneous shape " ++
      s!"after 2 dimensions. The detected shape was (2, {count}) + inhomogeneous part."
  | imageFormat format =>
    "Format " ++ Text.quoted format ++ " is not supported (supported formats: " ++
      ", ".intercalate imageFormats ++ ")"
  | color text => s!"Invalid RGBA argument: {text}"
  | grayLevel text =>
    s!"Invalid string grayscale value {text}. Value must be within 0-1 range"
  | colorLength => "RGBA sequence should have length 3 or 4"
  | colorRange => "RGBA values should be within 0-1 range"
  | figureSize width height =>
    "figure size must be positive finite not (" ++ Number.floatText width ++ ", " ++
      Number.floatText height ++ ")"

/-- What the file system refuses. -/
inductive FileError where
  | missing (path : String)
  | exists (path : String)
  | notDirectory (path : String)
  | isDirectory (path : String)
  deriving DecidableEq, Repr

def FileError.message : FileError → String
  | missing path => "[Errno 2] No such file or directory: " ++ Text.quoted path
  | «exists» path => "[Errno 17] File exists: " ++ Text.quoted path
  | notDirectory path => "[Errno 20] Not a directory: " ++ Text.quoted path
  | isDirectory path => "[Errno 21] Is a directory: " ++ Text.quoted path

/-- The parts that a processor works with. -/
inductive Part where
  | memory | display | timers | keypad
  deriving DecidableEq, Repr

inductive Failure where
  | fault (f : Fault)
  | badValue (b : BadValue)
  /-- The processor is to fetch but has no memory. -/
  | noMemory
  | notConnected (part : Part)
  /-- A value of a kind that the operation is not defined on. -/
  | wrongKind
  /-- A value that lacks what is asked of it. -/
  | lacking
  | missingKey
  | outOfBounds
  | divisionByZero
  | beyondRange
  /-- Bytes that are no text in UTF-8. -/
  | undecodable
  | file (e : FileError)
  deriving Repr

/-- The text of a failure that has one of its own. -/
def Failure.message? : Failure → Option String
  | fault f => some f.message
  | badValue b => some b.message
  | noMemory => some "CPU has no memory attached"
  | _ => none

end ChipEight
