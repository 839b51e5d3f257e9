import ChipEight.Datum
import ChipEight.Number.Decimal
/-!
Reading JSON.  A reader takes what is left of the text and gives a value and what is left behind it;
a mistake names its place by how much was left there, from which `Mistake.message` counts lines and
columns.  Besides the standard values there are `NaN`, `Infinity` and `-Infinity`; of equal keys the
last value counts.
-/

namespace ChipEight.Json

structure Mistake where
  reason : String
  /-- How many characters were left at the place. -/
  left : Nat
  deriving DecidableEq, Repr

/-- The mistake with its place in the text: line, column and position. -/
def Mistake.message (m : Mistake) (text : List Char) : String :=
  let before := text.take (text.length - m.left)
  let line := before.count '\n' + 1
  let column := (before.reverse.takeWhile (· != '\n')).length + 1
  s!"{m.reason}: line {line} column {column} (char {before.length})"

def mistake {α : Type} (reason : String) (place : List Char) : Except Mistake α :=
  .error ⟨reason, place.length⟩

def skipBlank (cs : List Char) : List Char :=
  cs.dropWhile fun c => c == ' ' || c == '\t' || c == '\n' || c == '\r'

/-! ### Texts -/

def hexValue? (c : Char) : Option Nat :=
  if c.isDigit then some (c.toNat - 48)
  else if 'a' ≤ c && c ≤ 'f' then some (c.toNat - 87)
  else if 'A' ≤ c && c ≤ 'F' then some (c.toNat - 55)
  else none

/-- Four hexadecimal digits with something behind them. -/
def hexUnit? : List Char → Option (Nat × List Char)
  | a :: b :: c :: d :: rest => do
    let a ← hexValue? a
    let b ← hexValue? b
    let c ← hexValue? c
    let d ← hexValue? d
    if rest.isEmpty then none else some (((a * 16 + b) * 16 + c) * 16 + d, rest)
  | _ => none

/-- The character of a 16-bit unit; a half of a pair on its own stands for no character. -/
def ofUnit (n : Nat) : Char := if n.isValidChar then Char.ofNat n else Char.ofNat 0xfffd

/-- The second half of a pair, if it follows. -/
def lowUnit? : List Char → Option (Nat × List Char)
  | '\\' :: 'u' :: rest =>
    match hexUnit? rest with
    | some (n, rest) => if 0xdc00 ≤ n && n ≤ 0xdfff then some (n, rest) else none
    | none => none
  | _ => none

/-- Whether a further escape of a unit follows that cannot be read. -/
def badUnitFollows : List Char → Bool
  | '\\' :: 'u' :: rest => 4 < rest.length && (hexUnit? rest).isNone
  | _ => false

def shortEscape? : Char → Option Char
  | '"' => some '"'
  | '\\' => some '\\'
  | '/' => some '/'
  | 'b' => some '\x08'
  | 'f' => some '\x0c'
  | 'n' => some '\n'
  | 'r' => some '\r'
  | 't' => some '\t'
  | _ => none

/-- The rest of a text behind its opening quote, up to the closing one; `opening` is what was left
at the opening quote. -/
def readText (opening : List Char) : Nat → List Char → List Char →
    Except Mistake (String × List Char)
  | 0, _, _ => mistake "Unterminated string starting at" opening
  | fuel + 1, done, cs =>
    match cs with
    | [] => mistake "Unterminated string starting at" opening
    | '"' :: rest => .ok (String.ofList done.reverse, rest)
    | '\\' :: 'u' :: rest =>
      match hexUnit? rest with
      | none => mistake "Invalid \\uXXXX escape" ('u' :: rest)
      | some (n, after) =>
        if 0xd800 ≤ n && n ≤ 0xdbff then
          if badUnitFollows after then mistake "Invalid \\uXXXX escape" (after.drop 1)
          else
            match lowUnit? after with
            | some (low, rest) =>
              let c := Char.ofNat (0x10000 + (n - 0xd800) * 0x400 + (low - 0xdc00))
              readText opening fuel (c :: done) rest
            | none => readText opening fuel (ofUnit n :: done) after
        else readText opening fuel (ofUnit n :: done) after
    | ['\\'] => mistake "Unterminated string starting at" opening
    | '\\' :: c :: rest =>
      match shortEscape? c with
      | some c => readText opening fuel (c :: done) rest
      | none => mistake "Invalid \\escape: " cs
    | c :: rest =>
      if c.toNat < 32 then mistake "Invalid control character at" cs
      else readText opening fuel (c :: done) rest

/-! ### Numbers -/

/-- Digits behind a mark, none if the mark is missing or nothing follows it. -/
def fraction : List Char → List Char × List Char
  | '.' :: rest =>
    let ds := rest.takeWhile Char.isDigit
    if ds.isEmpty then ([], '.' :: rest) else (ds, rest.drop ds.length)
  | cs => ([], cs)

def exponent? : List Char → Option (Int × List Char)
  | e :: rest =>
    if e == 'e' || e == 'E' then
      let (negative, rest) := match rest with
        | '-' :: rest => (true, rest)
        | '+' :: rest => (false, rest)
        | rest => (false, rest)
      let ds := rest.takeWhile Char.isDigit
      if ds.isEmpty then none
      else
        let n := Number.ofDigits ds
        some (if negative then -(n : Int) else n, rest.drop ds.length)
    else none
  | [] => none

/-- A number without its sign: an integer unless a fraction or an exponent follows. -/
def unsigned? (negative : Bool) (cs : List Char) : Option (Number × List Char) :=
  let ds := match cs with
    | '0' :: _ => ['0']
    | cs => cs.takeWhile Char.isDigit
  if ds.isEmpty then none
  else
    let (part, rest) := fraction (cs.drop ds.length)
    let exponent := exponent? rest
    let rest := (exponent.map (·.2)).getD rest
    if part.isEmpty && exponent.isNone then
      let n := Number.ofDigits ds
      some (.int (if negative then -(n : Int) else n), rest)
    else
      let power := (exponent.map (·.1)).getD 0 - part.length
      some (.float (Number.floatOfDecimal negative (Number.ofDigits (ds ++ part)) power), rest)

def number? : List Char → Option (Number × List Char)
  | '-' :: rest => unsigned? true rest
  | cs => unsigned? false cs

/-! ### Values -/

/-- The values that are words. -/
def words : List (List Char × Datum) := [
  ("null".toList, .null),
  ("true".toList, .bool true),
  ("false".toList, .bool false),
  ("NaN".toList, .number (.float Number.nan)),
  ("Infinity".toList, .number (.float (Number.infinity false))),
  ("-Infinity".toList, .number (.float (Number.infinity true)))]

def readAtom (cs : List Char) : Except Mistake (Datum × List Char) :=
  match words.find? fun (w, _) => w.isPrefixOf cs with
  | some (w, d) => .ok (d, cs.drop w.length)
  | none =>
    match number? cs with
    | some (n, rest) => .ok (.number n, rest)
    | none => mistake "Expecting value" cs

mutual

/-- A value, which begins at once. -/
def readValue : Nat → List Char → Except Mistake (Datum × List Char)
  | 0, cs => mistake "Expecting value" cs
  | fuel + 1, cs =>
    match cs with
    | '"' :: rest => do
      let (s, rest) ← readText cs (rest.length + 1) [] rest
      return (.text s, rest)
    | '[' :: rest =>
      match skipBlank rest with
      | ']' :: rest => .ok (.list [], rest)
      | rest => do
        let (items, rest) ← readItems fuel rest
        return (.list items, rest)
    | '{' :: rest =>
      match skipBlank rest with
      | '}' :: rest => .ok (.dict [], rest)
      | rest => do
        let (entries, rest) ← readEntries fuel rest
        return (.dict (Datum.ofEntries entries), rest)
    | cs => readAtom cs

/-- The items of a list, up to its closing bracket. -/
def readItems : Nat → List Char → Except Mistake (List Datum × List Char)
  | 0, cs => mistake "Expecting value" cs
  | fuel + 1, cs => do
    let (item, rest) ← readValue fuel cs
    match skipBlank rest with
    | ']' :: rest => return ([item], rest)
    | ',' :: rest =>
      let (items, rest) ← readItems fuel (skipBlank rest)
      return (item :: items, rest)
    | rest => mistake "Expecting ',' delimiter" rest

/-- The entries of a mapping, up to its closing brace. -/
def readEntries : Nat → List Char → Except Mistake (List (Datum × Datum) × List Char)
  | 0, cs => mistake "Expecting value" cs
  | fuel + 1, cs =>
    match cs with
    | '"' :: rest => do
      let (key, rest) ← readText cs (rest.length + 1) [] rest
      match skipBlank rest with
      | ':' :: rest =>
        let (value, rest) ← readValue fuel (skipBlank rest)
        match skipBlank rest with
        | '}' :: rest => return ([(.text key, value)], rest)
        | ',' :: rest =>
          let (entries, rest) ← readEntries fuel (skipBlank rest)
          return ((.text key, value) :: entries, rest)
        | rest => mistake "Expecting ',' delimiter" rest
      | rest => mistake "Expecting ':' delimiter" rest
    | cs => mistake "Expecting property name enclosed in double quotes" cs

end

/-- The value that a whole text stands for. -/
def read (text : String) : Except Mistake Datum :=
  let cs := text.toList
  match cs with
  | '\ufeff' :: _ =>
    .error ⟨"Unexpected UTF-8 BOM (decode using utf-8-sig)", cs.length⟩
  | _ => do
    let (d, rest) ← readValue (2 * cs.length + 2) (skipBlank cs)
    let rest := skipBlank rest
    if rest.isEmpty then return d else throw ⟨"Extra data", rest.length⟩

end ChipEight.Json
