import ChipEight.Marked
import ChipEight.Yaml.Scalar
/-!
Reading YAML: block mappings and sequences, flow collections, plain and quoted scalars, comments,
anchors and aliases.  A mapping with an anchor is one mapping in all places of its aliases; it cannot
hold itself.
A reader starts at a token and gives a value with the place right behind it; `seek` goes on from
there to the next token, over blanks, comments and line ends.
-/

namespace ChipEight.Yaml

structure Mistake where
  problem : String
  /-- How many characters were left at the place. -/
  left : Nat
  /-- What was being read, and where that began. -/
  context : Option (String × Option Nat) := none
  /-- The character that no text may hold, if that is the mistake. -/
  character : Option Char := none
  deriving Repr

/-- A line and column, counted from one. -/
def placeText (name : String) (text : List Char) (left : Nat) : String :=
  let before := text.take (text.length - left)
  let line := before.count '\n' + 1
  let column := (before.reverse.takeWhile (· != '\n')).length + 1
  "  in \"" ++ name ++ s!"\", line {line}, column {column}"

/-- The mistake in a text of the given name. -/
def Mistake.message (m : Mistake) (name : String) (text : List Char) : String :=
  match m.character with
  | some c =>
    let code := String.ofList (Text.hexDigits 4 c.toNat)
    s!"unacceptable character #x{code}: {m.problem}\n  in \"" ++ name ++
      s!"\", position {text.length - m.left}"
  | none =>
    let context := match m.context with
      | none => []
      | some (what, none) => [what]
      | some (what, some left) =>
        if left == m.left then [what] else [what, placeText name text left]
    "\n".intercalate (context ++ [m.problem, placeText name text m.left])

/-- A place in the text: what is left, and how far into its line it begins. -/
structure Cursor where
  rest : List Char
  column : Nat
  deriving Repr

namespace Cursor

def next (c : Cursor) (count : Nat) : Cursor := ⟨c.rest.drop count, c.column + count⟩

def left (c : Cursor) : Nat := c.rest.length

end Cursor

def mistake {α : Type} (problem : String) (c : Cursor) : Except Mistake α :=
  .error { problem, left := c.left }

/-- Whether nothing, a blank or a line end stands first. -/
def gapFirst : List Char → Bool
  | [] => true
  | c :: _ => c == ' ' || c == '\t' || c == '\n'

/-- The next token, and whether a line end lies before it. -/
def seekFrom (comment crossed : Bool) (column : Nat) : List Char → Cursor × Bool
  | [] => (⟨[], column⟩, crossed)
  | '\n' :: rest => seekFrom false true 0 rest
  | c :: rest =>
    if comment || c == ' ' then seekFrom comment crossed (column + 1) rest
    else if c == '#' then seekFrom true crossed (column + 1) rest
    else (⟨c :: rest, column⟩, crossed)

def seek (c : Cursor) : Cursor × Bool := seekFrom false false c.column c.rest

/-- Marks that end a document: `---` and `...`. -/
def isMark : List Char → Bool
  | '-' :: '-' :: '-' :: rest => gapFirst rest
  | '.' :: '.' :: '.' :: rest => gapFirst rest
  | _ => false

/-- Whether the document ends at a token. -/
def ended (c : Cursor) : Bool := c.rest.isEmpty || (c.column == 0 && isMark c.rest)

def isDash : List Char → Bool
  | '-' :: rest => gapFirst rest
  | _ => false

/-- Whether a colon that ends a key stands first. -/
def isColon (flow : Bool) : List Char → Bool
  | ':' :: rest => flow || gapFirst rest
  | _ => false

/-! ### Scalars -/

structure Scalar where
  value : Marked
  after : Cursor
  /-- The scalar goes over several lines, so that it cannot be a key. -/
  crossed : Bool

def flowMarks : List Char := [',', '[', ']', '{', '}']

/-- Where a piece of a plain scalar ends. -/
def plainEnds (flow : Bool) : List Char → Bool
  | [] => true
  | ':' :: rest =>
    gapFirst rest || (flow && (match rest with
      | c :: _ => flowMarks.contains c
      | [] => false))
  | c :: _ => c == ' ' || c == '\t' || c == '\n' || (flow && (c == '?' || flowMarks.contains c))

/-- A piece of a plain scalar, without blanks. -/
def plainPiece (flow : Bool) : List Char → List Char
  | [] => []
  | c :: rest => if plainEnds flow (c :: rest) then [] else c :: plainPiece flow rest

/-- Blanks and line ends behind a piece: how many line ends, and the place behind them all. -/
def blanksFrom (breaks column : Nat) : List Char → Nat × Cursor
  | '\n' :: rest => blanksFrom (breaks + 1) 0 rest
  | ' ' :: rest => blanksFrom breaks (column + 1) rest
  | rest => (breaks, ⟨rest, column⟩)

/-- What line ends inside of a scalar become: one a blank, more one line end less. -/
def folded (breaks : Nat) : List Char :=
  if breaks == 1 then [' '] else List.replicate (breaks - 1) '\n'

/-- The pieces of a plain scalar; lines after the first begin at column `indent` or later. -/
def plainPieces (flow : Bool) (indent : Nat) : Nat → List Char → Cursor → Bool →
    List Char × Cursor × Bool
  | 0, done, c, crossed => (done, c, crossed)
  | fuel + 1, done, c, crossed =>
    let piece := plainPiece flow c.rest
    let done := done ++ piece
    let c := c.next piece.length
    let (breaks, next) := blanksFrom 0 c.column c.rest
    let stops := next.left == c.left || plainEnds flow next.rest || next.rest.head? == some '#' ||
      (!flow && next.column < indent && breaks != 0) || (breaks != 0 && ended next)
    if stops then (done, c, crossed)
    else
      let joint :=
        if breaks == 0 then List.replicate (next.column - c.column) ' ' else folded breaks
      plainPieces flow indent fuel (done ++ joint) next (crossed || breaks != 0)

/-- Whether a plain scalar can start here. -/
def plainStarts (flow : Bool) : List Char → Bool
  | [] => false
  | c :: rest =>
    if c == '-' then !gapFirst rest
    else if c == '?' || c == ':' then !flow && !gapFirst rest
    else
      !(" \t\n,[]#&*!|>'\"%@\x60\x7b\x7d".toList.contains c)

def plain (flow : Bool) (indent : Nat) (c : Cursor) : Scalar :=
  let (text, after, crossed) := plainPieces flow indent (c.left + 1) [] c false
  ⟨.ofDatum (resolve (String.ofList text)), after, crossed⟩

/-- How the text between quotes goes on behind blanks and line ends. -/
structure Pending where
  blanks : List Char := []
  breaks : Nat := 0
  /-- The first line end was escaped and counts for nothing. -/
  escaped : Bool := false

def Pending.text (p : Pending) : List Char :=
  if p.escaped then List.replicate (p.breaks - 1) '\n'
  else if p.breaks == 0 then p.blanks
  else folded p.breaks

def Pending.blank (p : Pending) (c : Char) : Pending :=
  if p.breaks == 0 then { p with blanks := p.blanks ++ [c] } else p

/-- A text that does not end; `opening` is what was left at its opening quote. -/
def unclosed (opening : Nat) : Mistake :=
  { problem := "found unexpected end of stream", left := 0
    context := some ("while scanning a quoted scalar", some opening) }

/-- The text up to the closing single quote; two of them stand for one. -/
def readSingle (opening : Nat) (done : List Char) (p : Pending) (column : Nat) (crossed : Bool) :
    List Char → Except Mistake Scalar
  | '\'' :: '\'' :: rest =>
    readSingle opening (done ++ p.text ++ ['\'']) {} (column + 2) crossed rest
  | '\'' :: rest =>
    .ok ⟨.ofDatum (.text (String.ofList (done ++ p.text))), ⟨rest, column + 1⟩, crossed⟩
  | '\n' :: rest => readSingle opening done { breaks := p.breaks + 1 } 0 true rest
  | c :: rest =>
    if c == ' ' || c == '\t' then
      readSingle opening done (p.blank c) (column + 1) crossed rest
    else readSingle opening (done ++ p.text ++ [c]) {} (column + 1) crossed rest
  | [] => .error (unclosed opening)

def escapes : List (Char × Char) := [
  ('0', '\x00'), ('a', '\x07'), ('b', '\x08'), ('t', '\t'), ('\t', '\t'), ('n', '\n'),
  ('v', '\x0b'), ('f', '\x0c'), ('r', '\r'), ('e', '\x1b'), (' ', ' '), ('"', '"'), ('\\', '\\'),
  ('/', '/'), ('N', '\x85'), ('_', '\xa0'), ('L', '\u2028'), ('P', '\u2029')]

/-- How many hexadecimal digits follow the letter of an escape. -/
def escapeDigits : List (Char × Nat) := [('x', 2), ('u', 4), ('U', 8)]

/-- A character as a message shows it; behind the end there is the null character. -/
def shownFirst (cs : List Char) : String := Text.quoted (String.singleton (cs.headD '\x00'))

/-- The character that an escape stands for, and how long it is without its backslash; `opening` is
what was left at the opening quote. -/
def unescape (opening : Nat) (cs : List Char) : Except Mistake (Char × Nat) :=
  let wrong (problem : String) (left : Nat) : Mistake :=
    { problem, left, context := some ("while scanning a double-quoted scalar", some opening) }
  let letter := cs.headD '\x00'
  let rest := cs.drop 1
  match escapes.lookup letter, escapeDigits.lookup letter with
  | some d, _ => .ok (d, 1)
  | none, some count =>
    let ds := (rest.take count).takeWhile isHex
    if ds.length == count then .ok (Char.ofNat (inRadix 16 ds), count + 1)
    else
      let found := shownFirst (rest.drop ds.length)
      .error (wrong s!"expected escape sequence of {count} hexadecimal digits, but found {found}"
        rest.length)
  | none, none => .error (wrong s!"found unknown escape character {shownFirst cs}" cs.length)

/-- The text up to the closing double quote. -/
def readDouble (opening : Nat) : Nat → List Char → Pending → Nat → Bool → List Char →
    Except Mistake Scalar
  | 0, _, _, _, _, _ => .error (unclosed opening)
  | fuel + 1, done, p, column, crossed, cs =>
    match cs with
    | '"' :: rest =>
      .ok ⟨.ofDatum (.text (String.ofList (done ++ p.text))), ⟨rest, column + 1⟩, crossed⟩
    | '\\' :: '\n' :: rest =>
      readDouble opening fuel (done ++ p.text) { breaks := 1, escaped := true } 0 true rest
    | '\\' :: rest =>
      match unescape opening rest with
      | .ok (c, length) =>
        readDouble opening fuel (done ++ p.text ++ [c]) {} (column + 1 + length) crossed
          (rest.drop length)
      | .error m => .error m
    | '\n' :: rest =>
      readDouble opening fuel done { p with blanks := [], breaks := p.breaks + 1 } 0 true rest
    | c :: rest =>
      if c == ' ' || c == '\t' then
        readDouble opening fuel done (p.blank c) (column + 1) crossed rest
      else readDouble opening fuel (done ++ p.text ++ [c]) {} (column + 1) crossed rest
    | [] => .error (unclosed opening)

/-- A mapping; its keys must be scalars. -/
def mapping (c : Cursor) (entries : List (Datum × Marked)) : Except Mistake Marked :=
  if entries.all fun (k, _) => k.isKey then .ok (.dict none (Datum.ofEntries entries))
  else
    .error { problem := "found unhashable key", left := c.left,
             context := some ("while constructing a mapping", some c.left) }

/-! ### Anchors and aliases -/

structure Anchors where
  /-- What was left at each anchor, and what it stands for. -/
  known : List (String × Nat × Marked) := []
  /-- The entries of the mappings with anchors, by their marks. -/
  marked : List (List (Datum × Marked)) := []

/-- What is read may depend on the anchors before it. -/
abbrev Reading := StateT Anchors (Except Mistake)

def isNameChar (c : Char) : Bool := c.isAlphanum || c == '-' || c == '_'

/-- The name behind the sign of an anchor or an alias. -/
def readName (what : String) (c : Cursor) : Except Mistake (String × Cursor) :=
  let name := (c.rest.drop 1).takeWhile isNameChar
  let after := c.next (name.length + 1)
  let ends := match after.rest with
    | [] => true
    | ch :: _ => " \t\n?:,]\x7d%@\x60".toList.contains ch
  if !name.isEmpty && ends then .ok (String.ofList name, after)
  else
    .error { problem := s!"expected alphabetic or numeric character, but found {shownFirst after.rest}"
             left := after.left, context := some (s!"while scanning an {what}", some c.left) }

/-- The value of an alias. -/
def readAlias (c : Cursor) : Reading Scalar := do
  let (name, after) ← readName "alias" c
  match (← get).known.lookup name with
  | some (_, value) => return ⟨value, after, false⟩
  | none => throw { problem := s!"found undefined alias {Text.quoted name}", left := c.left }

/-- Gives a value to an anchor, at which so many characters were left; a mapping is marked by it. -/
def Anchors.give (anchors : Anchors) (name : String) (left : Nat) : Marked → Marked × Anchors
  | .dict _ entries =>
    let value := .dict (some anchors.marked.length) entries
    (value, ⟨(name, left, value) :: anchors.known, anchors.marked ++ [entries]⟩)
  | value => (value, { anchors with known := (name, left, value) :: anchors.known })

/-- Gives a value to the anchor at a place. -/
def anchor (name : String) (c : Cursor) (value : Marked) : Reading Marked := do
  let anchors ← get
  match anchors.known.lookup name with
  | some (first, _) =>
    throw { problem := "second occurrence", left := c.left
            context := some (s!"found duplicate anchor {Text.quoted name}; first occurrence",
              some first) }
  | none =>
    let (value, anchors) := anchors.give name c.left value
    set anchors
    return value

/-! ### Flow collections -/

def cannotStart (c : Cursor) : Mistake :=
  { problem := s!"found character {shownFirst c.rest} that cannot start any token", left := c.left
    context := some ("while scanning for the next token", none) }

/-- What stands where a flow collection cannot go on. -/
def flowToken (c : Cursor) : Except Mistake String :=
  match c.rest with
  | [] => .ok "'<stream end>'"
  | ch :: _ =>
    if ",[]:?\x7b\x7d".toList.contains ch then .ok (shownFirst c.rest)
    else if plainStarts true c.rest || ch == '\'' || ch == '"' then .ok "'<scalar>'"
    else .error (cannotStart c)

/-- A flow collection that does not go on with what it needs. -/
def flowBroken {α : Type} (what needed : String) (start after : Cursor) : Reading α := do
  let found ← flowToken after
  throw { problem := s!"expected {needed}, but got {found}", left := after.left
          context := some (s!"while parsing a flow {what}", some start.left) }

mutual

/-- A value at a token: a scalar or a flow collection, or an alias. -/
def readInline : Nat → Bool → Nat → Cursor → Reading Scalar
  | 0, _, _, c => throw (cannotStart c)
  | fuel + 1, flow, indent, c =>
    match c.rest with
    | '[' :: _ => do
      let (items, after) ← readItems fuel c (c.next 1)
      return ⟨.list items, after, (c.rest.take (c.left - after.left)).contains '\n'⟩
    | '{' :: _ => do
      let (entries, after) ← readEntries fuel c (c.next 1)
      let d ← mapping c entries
      return ⟨d, after, (c.rest.take (c.left - after.left)).contains '\n'⟩
    | '\'' :: rest => liftM (readSingle c.left [] {} (c.column + 1) false rest)
    | '"' :: rest => liftM (readDouble c.left (rest.length + 1) [] {} (c.column + 1) false rest)
    | '*' :: _ => readAlias c
    | '&' :: _ => do
      let (name, after) ← readName "anchor" c
      let (token, crossed) := seek after
      if ['*', '&'].contains (token.rest.headD ' ') then throw (cannotStart token)
      let first ← readInline fuel flow indent token
      let value ← anchor name c first.value
      return ⟨value, first.after, crossed || first.crossed⟩
    | _ => if plainStarts flow c.rest then return plain flow indent c else throw (cannotStart c)

/-- The items of a flow sequence up to its closing bracket; an item with a colon is a mapping of
one entry. -/
def readItems : Nat → Cursor → Cursor → Reading (List Marked × Cursor)
  | 0, start, _ => throw (cannotStart start)
  | fuel + 1, start, c => do
    let (c, _) := seek c
    match c.rest with
    | ']' :: _ => return ([], c.next 1)
    | _ =>
      let item ← readInline fuel true 0 c
      let (after, _) := seek item.after
      let (value, after) ← if isColon true after.rest then do
          let (v, after) ← readFlowValue fuel (after.next 1)
          let d ← mapping c [(item.value.plain, v)]
          pure (d, after)
        else pure (item.value, after)
      let (after, _) := seek after
      match after.rest with
      | ',' :: _ =>
        let (items, after) ← readItems fuel start (after.next 1)
        return (value :: items, after)
      | ']' :: _ => return ([value], after.next 1)
      | _ => flowBroken "sequence" "',' or ']'" start after

/-- The value behind a colon in a flow collection; nothing stands for null. -/
def readFlowValue : Nat → Cursor → Reading (Marked × Cursor)
  | 0, c => throw (cannotStart c)
  | fuel + 1, c => do
    let (c, _) := seek c
    match c.rest with
    | ',' :: _ | ']' :: _ | '}' :: _ => return (.ofDatum .null, c)
    | _ =>
      let v ← readInline fuel true 0 c
      return (v.value, v.after)

/-- The entries of a flow mapping up to its closing brace. -/
def readEntries : Nat → Cursor → Cursor → Reading (List (Datum × Marked) × Cursor)
  | 0, start, _ => throw (cannotStart start)
  | fuel + 1, start, c => do
    let (c, _) := seek c
    match c.rest with
    | '}' :: _ => return ([], c.next 1)
    | _ =>
      let key ← readInline fuel true 0 c
      let (after, _) := seek key.after
      let (value, after) ←
        if isColon true after.rest then readFlowValue fuel (after.next 1)
        else pure (.ofDatum .null, after)
      let (after, _) := seek after
      match after.rest with
      | ',' :: _ =>
        let (entries, after) ← readEntries fuel start (after.next 1)
        return ((key.value.plain, value) :: entries, after)
      | '}' :: _ => return ([(key.value.plain, value)], after.next 1)
      | _ => flowBroken "mapping" "',' or '\x7d'" start after

end

/-! ### Block collections -/

def notHere (what : String) (c : Cursor) : Mistake :=
  { problem := what ++ " are not allowed here", left := c.left }

/-- A scalar that has to be a key but has no colon behind it; `next` is the next token. -/
def noColon (key next : Cursor) : Mistake :=
  { problem := "could not find expected ':'", left := next.left
    context := some ("while scanning a simple key", some key.left) }

/-- What a token begins in a block at column `column`, as messages name it; `crossed` says that the
token is the first of its line. -/
def blockToken (column : Nat) (crossed : Bool) (c : Cursor) : Reading String := do
  if c.column == 0 && isMark c.rest then
    return if c.rest.head? == some '-' then "'<document start>'" else "'<document end>'"
  if isDash c.rest then
    if !crossed then throw (notHere "sequence entries" c)
    return if column < c.column then "'<block sequence start>'" else "'-'"
  match c.rest with
  | [] => return "'<stream end>'"
  | ch :: _ =>
    if ",]\x7d".toList.contains ch then return shownFirst c.rest
    let first ← readInline (c.left + 1) false (column + 1) c
    let (after, further) := seek first.after
    let isKey := crossed && !further && !first.crossed && isColon false after.rest
    if isKey then return if column < c.column then "'<block mapping start>'" else "'?'"
    if crossed && c.column == column then throw (noColon c after)
    return if ch == '[' || ch == '{' then shownFirst c.rest else "'<scalar>'"

/-- A block collection that begins where `start` characters were left and does not go on as it
should. -/
def blockBroken {α : Type} (what : String) (start column : Nat) (crossed : Bool) (c : Cursor) :
    Reading α := do
  let found ← blockToken column crossed c
  throw { problem := s!"expected <block end>, but found {found}", left := c.left
          context := some (s!"while parsing a block {what}", some start) }

/-- The anchor that stands alone in what is left of its line: its name, and the places behind it and
of the next token. -/
def anchorOfBlock (c : Cursor) : Except Mistake (Option (String × Cursor × Cursor)) := do
  if c.rest.head? == some '&' then
    let (name, after) ← readName "anchor" c
    let (token, crossed) := seek after
    return if crossed || ended token then some (name, after, token) else none
  else return none

mutual

/-- A value at a token.  Behind a key in the same line only scalars and flow collections may
stand; behind an anchor it may be left out. -/
def readNode : Nat → Nat → Bool → Cursor → Reading (Marked × Cursor)
  | 0, _, _, c => throw (cannotStart c)
  | fuel + 1, indent, sameLine, c =>
    if isDash c.rest then
      if sameLine then throw (notHere "sequence entries" c)
      else do
        let (items, after) ← readSequence fuel c.left c.column false c
        return (.list items, after)
    else do
      match ← anchorOfBlock c with
      | some (name, after, token) =>
        let (value, after) ←
          if !ended token && indent ≤ token.column then readNode fuel indent false token
          else if !ended token && sameLine && token.column + 1 == indent && isDash token.rest then do
            let (items, after) ← readSequence fuel token.left token.column true token
            pure (.list items, after)
          else pure (.ofDatum .null, after)
        return (← anchor name c value, after)
      | none =>
        let first ← readInline (c.left + 1) false indent c
        let (after, crossed) := seek first.after
        if !crossed && isColon false after.rest then
          if sameLine || first.crossed then throw (notHere "mapping values" after)
          else
            let (entries, after) ← readMapping fuel c.left c.column first.value.plain after
            let d ← mapping c entries
            return (d, after)
        else return (first.value, first.after)

/-- The items of a block sequence from a dash on.  A sequence that is the value of a key may stand
at the key's column; then the next key ends it. -/
def readSequence : Nat → Nat → Nat → Bool → Cursor → Reading (List Marked × Cursor)
  | 0, _, _, _, c => throw (cannotStart c)
  | fuel + 1, start, column, inMapping, c => do
    let dash := c.next 1
    let (token, crossed) := seek dash
    let (value, after) ←
      if ended token || (crossed && token.column ≤ column) then pure (.ofDatum .null, dash)
      else readNode fuel (column + 1) false token
    let (token, crossed) := seek after
    if ended token || token.column < column then return ([value], after)
    else if !crossed || column < token.column then
      blockBroken "collection" start column crossed token
    else if isDash token.rest then
      let (items, after) ← readSequence fuel start column inMapping token
      return (value :: items, after)
    else if inMapping then return ([value], after)
    else blockBroken "collection" start column crossed token

/-- The entries of a block mapping whose first key was read, from its colon on. -/
def readMapping : Nat → Nat → Nat → Datum → Cursor →
    Reading (List (Datum × Marked) × Cursor)
  | 0, _, _, _, c => throw (cannotStart c)
  | fuel + 1, start, column, key, c => do
    let colon := c.next 1
    let (token, crossed) := seek colon
    let (value, after) ←
      if ended token then pure (.ofDatum .null, colon)
      else if !crossed then readNode fuel (column + 1) true token
      else if column < token.column then readNode fuel (column + 1) false token
      else if token.column == column && isDash token.rest then
        let (items, after) ← readSequence fuel token.left column true token
        pure (.list items, after)
      else pure (.ofDatum .null, colon)
    let (token, crossed) := seek after
    if ended token || token.column < column then return ([(key, value)], after)
    else if !crossed || column < token.column || isDash token.rest then
      blockBroken "mapping" start column crossed token
    else
      let next ← readInline (token.left + 1) false (column + 1) token
      let (colon, crossed) := seek next.after
      if !crossed && !next.crossed && isColon false colon.rest then
        let (entries, after) ← readMapping fuel start column next.value.plain colon
        return ((key, value) :: entries, after)
      else throw (noColon token colon)

end

/-! ### Documents -/

/-- Characters that no text may hold. -/
def isForbidden (c : Char) : Bool :=
  let n := c.toNat
  !(n == 9 || n == 10 || n == 13 || (32 ≤ n && n ≤ 126) || n == 0x85 ||
    (0xa0 ≤ n && n ≤ 0xd7ff) || (0xe000 ≤ n && n ≤ 0xfffd) || 0x10000 ≤ n)

/-- Lines that give directions to the reader stand before a document. -/
def skipDirectives : Nat → Cursor → Cursor
  | 0, c => c
  | fuel + 1, c =>
    let token := (seek c).1
    match token.rest with
    | '%' :: rest =>
      if token.column == 0 then skipDirectives fuel ⟨rest.dropWhile (· != '\n'), 1⟩ else token
    | _ => token

/-- A second document, where the first began with `start` characters left. -/
def anotherDocument (start : Nat) (c : Cursor) : Mistake :=
  { problem := "but found another document", left := c.left
    context := some ("expected a single document in the stream", some start) }

/-- The value of a text that holds at most one document; none is null. -/
def readDocument (text : String) : Reading Marked := do
  let cs := match text.toList with
    | '\ufeff' :: rest => rest
    | cs => cs
  match cs.find? isForbidden with
  | some c =>
    throw { problem := "special characters are not allowed"
            left := (cs.dropWhile (!isForbidden ·)).length
            character := some c }
  | none =>
    let fuel := 2 * cs.length + 4
    let start := skipDirectives fuel ⟨cs, 0⟩
    let marked := match start.rest with
      | '-' :: '-' :: '-' :: rest => start.column == 0 && gapFirst rest
      | _ => false
    let (token, crossed) := if marked then seek (start.next 3) else (start, true)
    if ended token then
      if isMark token.rest && token.rest.head? == some '-' then
        throw (anotherDocument token.left token)
      return .ofDatum .null
    else
      let (d, after) ← readNode fuel 0 (marked && !crossed) token
      let (next, further) := seek after
      if next.rest.isEmpty then return d
      else if next.column == 0 && isMark next.rest then
        if next.rest.head? == some '.' && (seek (next.next 3)).1.rest.isEmpty then return d
        else throw (anotherDocument token.left next)
      else
        let found ← blockToken 0 further next
        throw { problem := s!"expected '<document start>', but found {found}", left := next.left }

def read (text : String) : Except Mistake Document := do
  let (value, anchors) ← (readDocument text).run {}
  return { marked := anchors.marked, value }

end ChipEight.Yaml
