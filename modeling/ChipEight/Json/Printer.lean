import ChipEight.Datum
/-!
Writing JSON: two blanks of indentation for each level, entries in their order, and escapes for
everything outside ASCII.
-/

namespace ChipEight.Json

def hexEscape (n : Nat) : List Char := '\\' :: 'u' :: Text.hexDigits 4 n

def escape (c : Char) : List Char :=
  match c with
  | '"' => ['\\', '"']
  | '\\' => ['\\', '\\']
  | '\n' => ['\\', 'n']
  | '\r' => ['\\', 'r']
  | '\t' => ['\\', 't']
  | '\x08' => ['\\', 'b']
  | '\x0c' => ['\\', 'f']
  | c =>
    let n := c.toNat
    if 32 ≤ n && n < 127 then [c]
    else if n < 0x10000 then hexEscape n
    else
      hexEscape (0xd800 + (n - 0x10000) / 0x400) ++ hexEscape (0xdc00 + (n - 0x10000) % 0x400)

def quote (s : String) : String := String.ofList ('"' :: s.toList.flatMap escape ++ ['"'])

def numberText : Number → String
  | .int i => toString i
  | .float f =>
    match Number.unpack f with
    | .nan => "NaN"
    | .infinite negative => if negative then "-Infinity" else "Infinity"
    | .finite .. => Number.floatText f

def boolText (b : Bool) : String := if b then "true" else "false"

/-- A key is always a text. -/
def keyText : Datum → String
  | .text s => s
  | .null => "null"
  | .bool b => boolText b
  | .number n => numberText n
  | d => d.literal

def newline (depth : Nat) : String := String.ofList ('\n' :: List.replicate (2 * depth) ' ')

/-- Parts in brackets, each on a line of its own. -/
def block (depth : Nat) (opening closing : String) (parts : List String) : String :=
  if parts.isEmpty then opening ++ closing
  else
    opening ++ newline (depth + 1) ++ ("," ++ newline (depth + 1)).intercalate parts ++
      newline depth ++ closing

mutual

def write (depth : Nat) : Datum → String
  | .null => "null"
  | .bool b => boolText b
  | .number n => numberText n
  | .text s => quote s
  | .list xs => block depth "[" "]" (writeItems (depth + 1) xs)
  | .dict es => block depth "\x7b" "\x7d" (writeEntries (depth + 1) es)

def writeItems (depth : Nat) : List Datum → List String
  | [] => []
  | x :: xs => write depth x :: writeItems depth xs

def writeEntries (depth : Nat) : List (Datum × Datum) → List String
  | [] => []
  | (k, v) :: rest => (quote (keyText k) ++ ": " ++ write depth v) :: writeEntries depth rest

end

/-- The text of a value. -/
def print (d : Datum) : String := write 0 d

end ChipEight.Json
