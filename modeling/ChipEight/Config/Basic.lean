import ChipEight.Datum
import ChipEight.System
import ChipEight.Trace.Basic
/-!
The configuration: a tree of settings in named sections, read and written along dotted paths, and
merged with what a user gives.  Every change leaves a mapping at the root.
-/

namespace ChipEight

/-- What a machine is built from, by name; the seed and the keymap are left to the user. -/
def MachineConfig.fixed (m : MachineConfig) : Datum :=
  .record [
    ("cpu_freq_hz", .number m.clock), ("timer_freq_hz", .number m.timerRate),
    ("memory_size", .int m.memorySize), ("program_start", .int m.programStart),
    ("stack_depth", .int m.stackDepth), ("resolution", .list [.int m.width, .int m.height])]

structure Config where
  settings : List (Datum × Datum)
  deriving Inhabited

namespace Config

def defaultKeys : Datum := .record (defaultKeymap.map fun (name, key) => (name, .int key))

/-- The default settings. -/
def default : Config where
  settings := [
    (.text "machine", .text "chip8"),
    (.text "cpu", .record [("clock_hz", .int defaultClock), ("random_seed", .null)]),
    (.text "timers", .record [("rate_hz", .int defaultTimerRate)]),
    (.text "display", .record [
      ("pixel_scale", .int 10), ("on_color", .text "#e0e0ff"), ("off_color", .text "#1a1a22")]),
    (.text "keymap", defaultKeys),
    (.text "trace", .record [
      ("enabled", .bool false), ("max_history", .int Trace.defaultLimit),
      ("format", .text "json")]),
    (.text "logging", .record [("level", .text "INFO"), ("file", .null)])]

def toDatum (c : Config) : Datum := .dict c.settings

/-- The names that a dotted path leads through. -/
def path (key : String) : List String := (key.toList.splitOn '.').map String.ofList

/-! ### Reading -/

/-- The value that a path leads to; each name on it must be a key. -/
def valueAt : List String → Datum → Except Failure Datum
  | [], d => .ok d
  | name :: rest, d => do valueAt rest (← d.index name)

/-- The value under a dotted key, or what to take where there is none. -/
def get (c : Config) (key : String) (default : Datum) : Datum :=
  match valueAt (path key) c.toDatum with
  | .ok d => d
  | .error _ => default

/-! ### Writing -/

/-- Puts a value at the end of a path; whatever is no section on the way becomes an empty one. -/
def setAt (value : Datum) : List String → List (Datum × Datum) → List (Datum × Datum)
  | [], entries => entries
  | [name], entries => Datum.insert (.text name) value entries
  | name :: next :: rest, entries =>
    let inner := match Datum.lookup (.text name) entries with
      | some (.dict es) => es
      | _ => []
    Datum.insert (.text name) (.dict (setAt value (next :: rest) inner)) entries

def set (c : Config) (key : String) (value : Datum) : Config :=
  { c with settings := setAt value (path key) c.settings }

def setNotes (key : String) (value : Datum) : List Record :=
  [⟨.debug, .config, s!"Configuration updated: {key} = {value.shown}"⟩]

/-! ### Resetting -/

/-- The value that a path leads to, null where a name on it does not occur. -/
def defaultAt : List String → Datum → Except Failure Datum
  | [], d => .ok d
  | name :: rest, d => do
    if ← d.contains name then defaultAt rest (← d.index name) else return .null

/-- Puts a value at the end of a path in a tree, or gives `none` where the path breaks off. -/
def resetAt (value : Except Failure Datum) : List String → Datum → Except Failure (Option Datum)
  | [], d => .ok (some d)
  | [name], d => do
    match d with
    | .dict es => return some (.dict (Datum.insert (.text name) (← value) es))
    | _ => throw .wrongKind
  | name :: next :: rest, d => do
    if ← d.contains name then
      let inner ← d.index name
      match d, ← resetAt value (next :: rest) inner with
      | .dict es, some changed => return some (.dict (Datum.insert (.text name) changed es))
      | _, _ => return none
    else return none

/-- Resets what is under a dotted key; says whether the key's sections are there. -/
def reset (c : Config) (key : String) : Except Failure (Config × Bool) := do
  match ← resetAt (defaultAt (path key) default.toDatum) (path key) c.toDatum with
  | some (.dict es) => return (⟨es⟩, true)
  | _ => return (c, false)

def resetNotes (key : String) : List Record :=
  [⟨.info, .config, s!"Configuration key reset to default: {key}"⟩]

def resetAllNotes : List Record := [⟨.info, .config, "Configuration reset to defaults"⟩]

/-! ### Merging -/

/-- Whether a key names the keymap, which is replaced and not merged.  Only a top-level key does;
keys that are empty do not count as a level. -/
def namesKeymap (top : Bool) (key : Datum) : Bool := top && key.same (.text "keymap")

mutual

/-- A user's value beside the one that is there: mappings are merged, others replaced. -/
def mergeValue (top : Bool) (key : Datum) : Datum → Option Datum → Datum
  | .dict user, some (.dict old) =>
    if namesKeymap top key then .dict user
    else .dict (mergeEntries (top && !key.truthy) user old)
  | value, _ => value

def mergeEntries (top : Bool) :
    List (Datum × Datum) → List (Datum × Datum) → List (Datum × Datum)
  | [], old => old
  | (key, value) :: rest, old =>
    mergeEntries top rest
      (Datum.insert key (mergeValue top key value (Datum.lookup key old)) old)

end

def merge (c : Config) (user : List (Datum × Datum)) : Config :=
  ⟨mergeEntries true user c.settings⟩

/-! ### The machine that is configured -/

/-- The known kinds of machines. -/
def machines : List (String × MachineConfig) := [("chip8", {})]

/-- The values that a machine is built from, as far as its kind is known. -/
def machine (c : Config) : Except Failure Datum := do
  let kind := c.get "machine" (.text "chip8")
  unless kind.isKey do throw .wrongKind
  let fixed := match machines.find? (fun m => kind.same (.text m.1)) with
    | some (_, m) => m.fixed
    | none => .dict []
  let keymap ← (c.get "keymap" defaultKeys).toEntries
  return [
    ("cpu_freq_hz", c.get "cpu.clock_hz" (.int defaultClock)),
    ("timer_freq_hz", c.get "timers.rate_hz" (.int defaultTimerRate)),
    ("random_seed", c.get "cpu.random_seed" .null),
    ("keymap", .dict keymap)].foldl
      (fun d (name, value) => match d with
        | .dict es => .dict (Datum.insert (.text name) value es)
        | d => d)
      fixed

end Config
end ChipEight
