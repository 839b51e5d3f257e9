import ChipEight.Journal
import ChipEight.Keypad
import ChipEight.Text.Numeral
/-!
Reading a command line.  Every argument is first sorted into options and other arguments; an option
may be shortened as long as only one fits, and its value may follow an equals sign.  Then options
take their values from left to right.
-/

namespace ChipEight.CommandLine

/-- What an option stands for. -/
inductive Kind where
  | help
  | version
  | flag
  | text
  | integer
  | key
  | level
  deriving DecidableEq, Repr

structure Flag where
  names : List String
  kind : Kind
  required : Bool := false
  deriving DecidableEq, Repr

def Flag.takesValue (o : Flag) : Bool :=
  match o.kind with
  | .help | .version | .flag => false
  | _ => true

def Flag.title (o : Flag) : String := "/".intercalate o.names

/-- Why a command line is refused. -/
inductive Refusal where
  | ambiguous (argument : String) (fitting : List String)
  | valueMissing (title : String)
  | valueUnwanted (title value : String)
  | noInteger (title value : String)
  | noKey (title value : String)
  | keyOutOfRange (title value : String)
  | noLevel (title value : String)
  | missing (titles : List String)
  | unrecognized (arguments : List String)
  deriving DecidableEq, Repr

namespace Refusal

def noKeyText (value : String) : String := s!"invalid keypad key: {Text.quoted value}"

def keyRangeText (value : String) : String := s!"keypad key out of range: {Text.quoted value}"

def message : Refusal → String
  | ambiguous argument fitting =>
    let names := ", ".intercalate fitting
    s!"ambiguous option: {argument} could match {names}"
  | valueMissing title => s!"argument {title}: expected one argument"
  | valueUnwanted title value =>
    s!"argument {title}: ignored explicit argument {Text.quoted value}"
  | noInteger title value => s!"argument {title}: invalid int value: {Text.quoted value}"
  | noKey title value => s!"argument {title}: {noKeyText value}"
  | keyOutOfRange title value => s!"argument {title}: {keyRangeText value}"
  | noLevel title value =>
    let names := ", ".intercalate (Level.all.map fun l => Text.quoted l.name)
    s!"argument {title}: invalid choice: {Text.quoted value} (choose from {names})"
  | missing titles =>
    let names := ", ".intercalate titles
    s!"the following arguments are required: {names}"
  | unrecognized arguments =>
    let list := " ".intercalate arguments
    s!"unrecognized arguments: {list}"

end Refusal

/-- Where reading a command line ends early. -/
inductive Stop where
  | help
  | version
  | refused (r : Refusal)
  deriving DecidableEq, Repr

/-! ### Sorting the arguments -/

inductive Token where
  /-- An option, with the value that came in the same argument. -/
  | option (o : Flag) (name : String) (value : Option String)
  /-- What looks like an option but is none. -/
  | unknown (argument : String)
  | plain (argument : String)
  /-- The mark behind which there are no more options. -/
  | mark
  deriving DecidableEq, Repr

/-- The options by each of their names. -/
def nameTable (options : List Flag) : List (String × Flag) :=
  options.flatMap fun o => o.names.map fun n => (n, o)

/-- The parts before and behind the first equals sign. -/
def splitEquals (s : String) : Option (String × String) :=
  let cs := s.toList
  let before := cs.takeWhile (· != '=')
  if before.length == cs.length then none
  else some (String.ofList before, String.ofList (cs.drop (before.length + 1)))

/-- Whether a text is a minus before digits with at most one point among them. -/
def isNegativeNumber (s : String) : Bool :=
  match s.toList with
  | '-' :: cs =>
    let isDigit (c : Char) : Bool := (Text.decimalValue? c).isSome
    let cs := if cs.getLast? == some '\n' then cs.dropLast else cs
    let whole := cs.takeWhile isDigit
    match cs.drop whole.length with
    | [] => !whole.isEmpty
    | '.' :: part => !part.isEmpty && part.all isDigit
    | _ => false
  | _ => false

/-- The options that an argument may mean by a shortened name, or by a one-letter name with the
value right behind it. -/
def fitting (table : List (String × Flag)) (argument : String) :
    List (String × Flag × Option String) :=
  match argument.toList with
  | '-' :: '-' :: _ =>
    let (start, value) := match splitEquals argument with
      | some (start, value) => (start, some value)
      | none => (argument, none)
    (table.filter fun (n, _) => n.startsWith start).map fun (n, o) => (n, o, value)
  | '-' :: c :: rest =>
    table.filterMap fun (n, o) =>
      if n == String.ofList ['-', c] then some (n, o, some (String.ofList rest))
      else if n.startsWith argument then some (n, o, none)
      else none
  | _ => []

def tokenOf (table : List (String × Flag)) (argument : String) : Except Stop Token :=
  if !argument.startsWith "-" then .ok (.plain argument)
  else
    match table.lookup argument with
    | some o => .ok (.option o argument none)
    | none =>
      if argument == "-" then .ok (.plain argument)
      else
        let exact := do
          let (name, value) ← splitEquals argument
          let o ← table.lookup name
          return Token.option o name (some value)
        match exact, fitting table argument with
        | some t, _ => .ok t
        | none, [(n, o, value)] => .ok (.option o n value)
        | none, [] =>
          if isNegativeNumber argument || argument.toList.contains ' ' then .ok (.plain argument)
          else .ok (.unknown argument)
        | none, several =>
          .error (.refused (.ambiguous argument (several.map fun (n, _, _) => n)))

def tokens (table : List (String × Flag)) : List String → Except Stop (List Token)
  | [] => .ok []
  | "--" :: rest => .ok (.mark :: rest.map Token.plain)
  | a :: rest => do return (← tokenOf table a) :: (← tokens table rest)

/-! ### Values -/

inductive Value where
  | set
  | text (s : String)
  | integer (i : Int)
  | key (k : Key)
  | level (l : Level)
  deriving DecidableEq, Repr

/-- A keypad key as one hexadecimal digit, in any spelling of that integer. -/
def keyOf (title s : String) : Except Refusal Key :=
  match Text.parseInt? 16 s with
  | none => .error (.noKey title s)
  | some i =>
    match Keypad.key? i with
    | .ok k => .ok k
    | .error _ => .error (.keyOutOfRange title s)

def valueOf (o : Flag) (s : String) : Except Stop Value :=
  match o.kind with
  | .help | .version | .flag => .ok .set
  | .text => .ok (.text s)
  | .integer =>
    match Text.parseInt? 10 s with
    | some i => .ok (.integer i)
    | none => .error (.refused (.noInteger o.title s))
  | .key =>
    match keyOf o.title s with
    | .ok k => .ok (.key k)
    | .error r => .error (.refused r)
  | .level =>
    match Level.ofName? s with
    | some l => .ok (.level l)
    | none => .error (.refused (.noLevel o.title s))

/-- An option that takes no value. -/
def actOn (o : Flag) : Except Stop Value :=
  match o.kind with
  | .help => .error .help
  | .version => .error .version
  | _ => .ok .set

/-- An option without a value that has one in its argument.  Letters of one-letter options may
follow one another; else the value is unwanted. -/
def refuseValue (table : List (String × Flag)) (o : Flag) (name value : String) : Stop :=
  if name.startsWith "--" || value.isEmpty then .refused (.valueUnwanted o.title value)
  else
    let rest := value.toList.dropWhile fun c => table.lookup (String.ofList ['-', c]) == some o
    if rest.isEmpty then
      match actOn o with
      | .error stop => stop
      | .ok _ => .refused (.valueUnwanted o.title value)
    else .refused (.valueUnwanted o.title (String.ofList rest))

/-! ### The whole line -/

structure Reading where
  /-- The options with their values, from left to right. -/
  given : List (Flag × Value) := []
  /-- What no option took. -/
  extras : List String := []
  deriving Repr

def Reading.give (r : Reading) (o : Flag) (v : Value) : Reading :=
  { r with given := (o, v) :: r.given }

def Reading.pass (r : Reading) (argument : String) : Reading :=
  { r with extras := argument :: r.extras }

/-- Lets the options take their values. -/
def readTokens (table : List (String × Flag)) : List Token → Except Stop Reading
  | [] => .ok {}
  | .plain a :: rest | .unknown a :: rest => do return (← readTokens table rest).pass a
  | .mark :: rest => do return (← readTokens table rest).pass "--"
  | .option o name (some value) :: rest => do
    if o.takesValue then
      let v ← valueOf o value
      return (← readTokens table rest).give o v
    else throw (refuseValue table o name value)
  | .option o _ none :: rest => do
    if o.takesValue then
      match rest with
      | .plain a :: rest =>
        let v ← valueOf o a
        return (← readTokens table rest).give o v
      | _ => throw (.refused (.valueMissing o.title))
    else
      let v ← actOn o
      return (← readTokens table rest).give o v

/-- The options of a command line, if it can be read as a whole. -/
def readArguments (options : List Flag) (arguments : List String) :
    Except Stop (List (Flag × Value)) := do
  let table := nameTable options
  let r ← readTokens table (← tokens table arguments)
  let missing := options.filter fun o => o.required && !(r.given.any fun (g, _) => g == o)
  unless missing.isEmpty do throw (.refused (.missing (missing.map Flag.title)))
  unless r.extras.isEmpty do throw (.refused (.unrecognized r.extras))
  return r.given

/-! ### Access -/

/-- The values of an option, from left to right. -/
def valuesOf (name : String) (given : List (Flag × Value)) : List Value :=
  given.filterMap fun (o, v) => if o.names.contains name then some v else none

/-- Of several values the last counts. -/
def lastOf {α : Type} (name : String) (pick : Value → Option α) (given : List (Flag × Value)) :
    Option α :=
  ((valuesOf name given).filterMap pick).getLast?

namespace Value

def text? : Value → Option String
  | text s => some s
  | _ => none

def integer? : Value → Option Int
  | integer i => some i
  | _ => none

def key? : Value → Option Key
  | key k => some k
  | _ => none

def level? : Value → Option Level
  | level l => some l
  | _ => none

end Value

def isSet (name : String) (given : List (Flag × Value)) : Bool := !(valuesOf name given).isEmpty

end ChipEight.CommandLine
