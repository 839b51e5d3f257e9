import ChipEight.Config.Basic
/-!
What settings are accepted.  Each rule speaks of one setting in one section and says what it
demands; settings that no rule names are free.  A section that is no mapping is asked all the same,
which fails where nothing can be asked of its kind.
-/

namespace ChipEight.Config

structure Rule where
  group : String
  setting : String
  accepts : Datum → Bool
  demand : String

def isPositiveInt : Datum → Bool
  | .number (.int i) => 0 < i
  | _ => false

/-- Whatever is no number is refused, and no truth value is one; but not a number passes, since it
is not at most zero. -/
def isRate : Datum → Bool
  | .number n => !n.le (.int 0)
  | _ => false

def isSeed : Datum → Bool
  | .null => true
  | .number (.int _) => true
  | _ => false

def isTruth : Datum → Bool
  | .bool _ => true
  | _ => false

def isKeyIndex : Datum → Bool
  | .number (.int i) => 0 ≤ i && i < 16
  | _ => false

def isOneOf (words : List String) : Datum → Bool
  | .text s => words.contains s
  | _ => false

def validOptions (words : List String) : String := "Valid options: " ++ ", ".intercalate words

def rulesBeforeKeymap : List Rule := [
  ⟨"cpu", "clock_hz", isPositiveInt, "Must be a positive integer"⟩,
  ⟨"cpu", "random_seed", isSeed, "Must be an integer or null"⟩,
  ⟨"timers", "rate_hz", isRate, "Must be a positive number"⟩,
  ⟨"display", "pixel_scale", isPositiveInt, "Must be a positive integer"⟩]

def rulesBehindKeymap : List Rule := [
  ⟨"trace", "enabled", isTruth, "Must be a boolean"⟩,
  ⟨"trace", "max_history", isPositiveInt, "Must be a positive integer"⟩,
  ⟨"trace", "format", isOneOf Trace.formats, validOptions Trace.formats⟩,
  ⟨"logging", "level", isOneOf (Level.all.map Level.name),
    validOptions (Level.all.map Level.name)⟩]

/-- What is wrong with the setting that a rule speaks of. -/
def Rule.check (rule : Rule) (root : Datum) : Except Failure (List String) := do
  let group ← root.getD rule.group (.dict [])
  if ← group.contains rule.setting then
    let value ← group.index rule.setting
    if rule.accepts value then return []
    else return [s!"Invalid {rule.group}.{rule.setting}: {value.shown}. {rule.demand}"]
  else return []

/-- The kind of machine must be a known one; what cannot be a key cannot be looked up. -/
def checkMachine (root : Datum) : Except Failure (List String) := do
  if ← root.contains "machine" then
    let kind ← root.index "machine"
    unless kind.isKey do throw .wrongKind
    let names := machines.map Prod.fst
    if isOneOf names kind then return []
    else return [s!"Invalid machine type: {kind.shown}. {validOptions names}"]
  else return []

/-- What is wrong with the keymap: each of its values must be a keypad key. -/
def checkKeymap (root : Datum) : Except Failure (List String) := do
  if ← root.contains "keymap" then
    match ← root.index "keymap" with
    | .dict es =>
      return es.filterMap fun (name, key) =>
        if isKeyIndex key then none
        else some (s!"Invalid keymap entry {name.literal}: {key.shown}. " ++
          "Must be an integer between 0 and 15")
    | _ => return ["Invalid keymap: must be a mapping of host key to keypad index"]
  else return []

/-- All that is wrong with a user's settings; nothing if they are accepted. -/
def validate (root : Datum) : Except Failure (List String) := do
  let machine ← checkMachine root
  let first ← rulesBeforeKeymap.mapM (·.check root)
  let keymap ← checkKeymap root
  let rest ← rulesBehindKeymap.mapM (·.check root)
  return machine ++ first.flatten ++ keymap ++ rest.flatten

/-- Takes over a user's settings if nothing is wrong with them, else says what is. -/
def accept (c : Config) (user : Datum) : Except Failure (Config × List String) := do
  match ← validate user, user with
  | [], .dict es => return (c.merge es, [])
  | [], _ => throw .lacking
  | problems, _ => return (c, problems)

end ChipEight.Config
