import ChipEight.Yaml.Scalar
/-!
Writing YAML in block style.  The entries of a mapping are sorted by their keys where these can be
compared; a text is written plain where it reads back as itself, else in single quotes, and with
escapes where it holds anything but printable ASCII.  Lines are broken at blanks behind column 80.
-/

namespace ChipEight.Yaml

/-! ### What a text holds -/

def isLineBreak (c : Char) : Bool := c == '\n' || c == '\x85' || c == '\u2028' || c == '\u2029'

def isSpaceOrBreak (c : Char) : Bool := c == ' ' || c == '\t' || c == '\r' || isLineBreak c

/-- Each character with the one before it and the one behind it. -/
def neighbors (before : Option Char) : List Char → List (Option Char × Char × Option Char)
  | [] => []
  | c :: rest => (before, c, rest.head?) :: neighbors (some c) rest

/-- Whether a text begins or goes on as something other than a plain scalar. -/
def hasIndicators (cs : List Char) : Bool :=
  let gap (c : Option Char) : Bool := (c.map isSpaceOrBreak).getD true
  ['-', '-', '-'].isPrefixOf cs || ['.', '.', '.'].isPrefixOf cs ||
    (neighbors none cs).any fun (before, c, after) =>
      match before with
      | none =>
        "#,[]&*!|>'\"%@\x60\x7b\x7d".toList.contains c ||
          ((c == '?' || c == ':' || c == '-') && gap after)
      | some _ => (c == ':' && gap after) || (c == '#' && gap before)

/-- Whether a text holds anything that only escapes can write. -/
def isSpecial (cs : List Char) : Bool :=
  cs.any (fun c => !(c == '\n' || (' ' ≤ c && c ≤ '~'))) ||
    (neighbors none cs).any fun (before, c, _) =>
      (before == some ' ' && c == '\n') || (before == some '\n' && c == ' ')

/-- Whether a text consists of the given parts, each a choice of characters with how many of them
there may be. -/
def consistsOf : List ((Char → Bool) × Nat × Nat) → List Char → Bool
  | [], cs => cs.isEmpty
  | (choice, least, most) :: rest, cs =>
    let run := ((cs.takeWhile choice).take most).length
    least ≤ run && consistsOf rest (cs.drop run)

def digits (least most : Nat) : (Char → Bool) × Nat × Nat := (Char.isDigit, least, most)

def mark (c : Char) : (Char → Bool) × Nat × Nat := ((· == c), 1, 1)

/-- A day, or a day with a time and perhaps a distance from universal time. -/
def isTimestamp (cs : List Char) : Bool :=
  let blank (c : Char) : Bool := c == ' ' || c == '\t'
  let sign (c : Char) : Bool := c == '-' || c == '+'
  let time := [digits 4 4, mark '-', digits 1 2, mark '-', digits 1 2]
  let clock := [digits 1 2, mark ':', digits 2 2, mark ':', digits 2 2]
  let begins := [
    time ++ [((fun c => c == 'T' || c == 't'), 1, 1)] ++ clock,
    time ++ [(blank, 1, cs.length)] ++ clock]
  let fractions := [[], [mark '.', digits 0 cs.length]]
  let zones := [[], [(blank, 0, cs.length), mark 'Z'],
    [(blank, 0, cs.length), (sign, 1, 1), digits 1 2],
    [(blank, 0, cs.length), (sign, 1, 1), digits 1 2, mark ':', digits 2 2]]
  consistsOf [digits 4 4, mark '-', digits 2 2, mark '-', digits 2 2] cs ||
    begins.any fun b => fractions.any fun f => zones.any fun z => consistsOf (b ++ f ++ z) cs

/-- Whether a plain scalar with this text is the text itself. -/
def readsBack (s : String) : Bool :=
  match resolve s with
  | .text _ => s != "=" && s != "<<" && !isTimestamp s.toList
  | _ => false

/-! ### Texts in the three styles -/

def lineWidth : Nat := 80

/-- A line end and the indentation of the next line. -/
def lineTurn (indent : Nat) : List Char := '\n' :: List.replicate indent ' '

/-- How a scalar is set: the column of its first character, and the indentation of its further
lines unless it has to stay in one line. -/
structure Place where
  column : Nat
  indent : Option Nat

/-- Whether a line may end at a single blank with something else on both sides. -/
def foldsAt (indent : Option Nat) (column : Nat) (before after : Option Char) : Option Nat :=
  if lineWidth < column && before.isSome && before != some ' ' && after.isSome &&
    after != some ' ' then indent else none

def foldPlain (indent : Option Nat) (column : Nat) (before : Option Char) : List Char → List Char
  | [] => []
  | c :: rest =>
    match if c == ' ' then foldsAt indent column before rest.head? else none with
    | some n => lineTurn n ++ foldPlain indent n (some c) rest
    | none => c :: foldPlain indent (column + 1) (some c) rest

/-- Between single quotes a quote is doubled, and a run of line ends is one longer than in the text
and followed by the indentation. -/
def foldSingle (indent : Option Nat) (column : Nat) (before : Option Char) :
    List Char → List Char
  | [] => []
  | c :: rest =>
    if c == '\'' then '\'' :: '\'' :: foldSingle indent (column + 2) (some c) rest
    else if c == '\n' then
      if rest.head? == some '\n' then '\n' :: foldSingle indent 0 (some c) rest
      else '\n' :: lineTurn (indent.getD 0) ++ foldSingle indent (indent.getD 0) (some c) rest
    else
      match if c == ' ' then foldsAt indent column before rest.head? else none with
      | some n => lineTurn n ++ foldSingle indent n (some c) rest
      | none => c :: foldSingle indent (column + 1) (some c) rest

/-- The letters that stand for characters in double quotes. -/
def escapeLetters : List (Char × Char) := [
  ('\x00', '0'), ('\x07', 'a'), ('\x08', 'b'), ('\t', 't'), ('\n', 'n'), ('\x0b', 'v'),
  ('\x0c', 'f'), ('\r', 'r'), ('\x1b', 'e'), ('"', '"'), ('\\', '\\'), ('\x85', 'N'),
  ('\xa0', '_'), ('\u2028', 'L'), ('\u2029', 'P')]

/-- The escape for a character, if it needs one. -/
def escape? (c : Char) : Option (List Char) :=
  let n := c.toNat
  match escapeLetters.lookup c with
  | some letter => some ['\\', letter]
  | none =>
    if 32 ≤ n && n ≤ 126 then none
    else
      let hex (count : Nat) := (Text.hexDigits count n).map Char.toUpper
      some (if n < 0x100 then '\\' :: 'x' :: hex 2
        else if n < 0x10000 then '\\' :: 'u' :: hex 4
        else '\\' :: 'U' :: hex 8)

/-- Between double quotes a backslash ends a line, before a blank or next to an escape; a blank
that begins a line is escaped.  Neither the first nor the last character is a place to end a
line. -/
def foldDouble (indent : Option Nat) (column : Nat) (first justEscaped : Bool) :
    List Char → List Char
  | [] => []
  | c :: rest =>
    let inner := !first && !rest.isEmpty
    match escape? c with
    | some e =>
      match if inner && lineWidth < column + e.length - 1 then indent else none with
      | some n =>
        if rest.head? == some ' ' then
          e ++ '\\' :: lineTurn n ++ '\\' :: foldDouble indent (n + 1) false true rest
        else e ++ '\\' :: lineTurn n ++ foldDouble indent n false true rest
      | none => e ++ foldDouble indent (column + e.length) false true rest
    | none =>
      match if inner && (c == ' ' || justEscaped) && lineWidth < column then indent else none with
      | some n =>
        if c == ' ' then
          '\\' :: lineTurn n ++ '\\' :: c :: foldDouble indent (n + 2) false false rest
        else '\\' :: lineTurn n ++ c :: foldDouble indent (n + 1) false false rest
      | none => c :: foldDouble indent (column + 1) false false rest

/-- A text in the plainest style that reads back as itself. -/
def textScalar (place : Place) (s : String) : String :=
  let cs := s.toList
  let edges := isSpaceOrBreak (cs.headD 'x') || isSpaceOrBreak (cs.getLastD 'x')
  if readsBack s && !edges && !isSpecial cs && !cs.contains '\n' && !hasIndicators cs then
    String.ofList (foldPlain place.indent place.column none cs)
  else if isSpecial cs then
    String.ofList ('"' :: foldDouble place.indent (place.column + 1) true false cs ++ ['"'])
  else String.ofList ('\'' :: foldSingle place.indent (place.column + 1) none cs ++ ['\''])

/-! ### Scalars -/

def floatText (f : Float) : String :=
  match Number.unpack f with
  | .nan => ".nan"
  | .infinite negative => if negative then "-.inf" else ".inf"
  | .finite .. =>
    let s := Number.floatText f
    -- an exponent needs a point before it
    if s.toList.contains '.' then s else ".0e".intercalate (s.splitOn "e")

/-- The kind of a scalar and its text, before any quoting. -/
def content : Datum → String × String
  | .null => ("null", "null")
  | .bool b => ("bool", if b then "true" else "false")
  | .number (.int i) => ("int", toString i)
  | .number (.float f) => ("float", floatText f)
  | .text s => ("str", s)
  | d => ("str", d.literal)

def scalar (place : Place) (d : Datum) : String :=
  match d with
  | .text s => textScalar place s
  | d => (content d).2

/-- Keys that are short and have one line stand right before their colon; the kind counts, with two
marks before it. -/
def isSimpleKey (key : Datum) : Bool :=
  let (kind, text) := content key
  !text.isEmpty && !text.toList.any isLineBreak && kind.length + 2 + text.length < 128

/-! ### Collections -/

/-- The entries by rising key, or as they are where keys cannot be compared. -/
def sortEntries (entries : List (Datum × Datum)) : List (Datum × Datum) :=
  if entries.all (fun (k, _) => k matches .text _) || entries.all (fun (k, _) => k.amount?.isSome)
  then entries.mergeSort fun a b => !((b.1.less a.1).toOption.getD false)
  else entries

mutual

/-- A value with all its mappings sorted. -/
def sorted : Datum → Datum
  | .list xs => .list (sortedItems xs)
  | .dict es => .dict (sortEntries (sortedEntries es))
  | d => d

def sortedItems : List Datum → List Datum
  | [] => []
  | x :: xs => sorted x :: sortedItems xs

def sortedEntries : List (Datum × Datum) → List (Datum × Datum)
  | [] => []
  | (k, v) :: rest => (k, sorted v) :: sortedEntries rest

end

def newline (indent : Nat) : String := String.ofList (lineTurn indent)

mutual

/-- A value behind a mark that ends at column `at`, in a collection at column `column`.  A
collection begins in the same line only behind a dash or the colon of a key that is not simple. -/
def writeValue (column «at» : Nat) (sameLine : Bool) : Datum → String
  | .list [] => " []"
  | .dict [] => " \x7b\x7d"
  | .list xs =>
    if sameLine then " " ++ "".intercalate (writeItems (column + 2) "" xs)
    else newline column ++ "".intercalate (writeItems column "" xs)
  | .dict es =>
    (if sameLine then " " else newline (column + 2)) ++
      "".intercalate (writeEntries (column + 2) "" es)
  | d => " " ++ scalar ⟨«at» + 1, some (column + 2)⟩ d

/-- The items of a sequence, each behind a dash; `gap` stands before the first. -/
def writeItems (column : Nat) (gap : String) : List Datum → List String
  | [] => []
  | x :: rest =>
    (gap ++ "-" ++ writeValue column (column + 1) true x) ::
      writeItems column (newline column) rest

/-- The entries of a mapping; `gap` stands before the first. -/
def writeEntries (column : Nat) (gap : String) : List (Datum × Datum) → List String
  | [] => []
  | (k, v) :: rest =>
    let entry :=
      if isSimpleKey k then
        let key := scalar ⟨column, none⟩ k
        key ++ ":" ++ writeValue column (column + key.length + 1) false v
      else
        "? " ++ scalar ⟨column + 2, some (column + 2)⟩ k ++ newline column ++ ":" ++
          writeValue column (column + 1) true v
    (gap ++ entry) :: writeEntries column (newline column) rest

end

/-- The text of a document. -/
def print (d : Datum) : String :=
  match sorted d with
  | .dict [] => "\x7b\x7d\n"
  | .dict es => "".intercalate (writeEntries 0 "" es) ++ "\n"
  | d => scalar ⟨0, some 0⟩ d ++ "\n"

end ChipEight.Yaml
