import ChipEight.Config.Storage
/-!
Configurations in which a mapping may stand in several places, as anchors and aliases of YAML bring
them about.  Such a mapping is kept beside the settings, which link to it, so that what is set,
reset or merged in one of its places is in all of them.  Values that are taken over are copied: a
copy shares nothing with what was there, but within it the same places hold one mapping.
-/

namespace ChipEight

/-- A value in a configuration: a mapping that may stand in several places is a link to it. -/
inductive Slot where
  | atom (d : Datum) (single : d.isKey = true)
  | list (items : List Slot)
  | dict (entries : List (Datum × Slot))
  | link (cell : Nat)

/-- The mappings that are linked to. -/
abbrev Cells := List (List (Datum × Slot))

namespace Slot

mutual

/-- The value as a tree, where it is known what is linked to. -/
def plain (linked : Nat → Datum) : Slot → Datum
  | atom d _ => d
  | list items => .list (plainItems linked items)
  | dict entries => .dict (plainEntries linked entries)
  | link cell => linked cell

def plainItems (linked : Nat → Datum) : List Slot → List Datum
  | [] => []
  | item :: rest => item.plain linked :: plainItems linked rest

def plainEntries (linked : Nat → Datum) : List (Datum × Slot) → List (Datum × Datum)
  | [] => []
  | (key, value) :: rest => (key, value.plain linked) :: plainEntries linked rest

end

mutual

/-- A copy of a value; its mappings with marks are kept from cell `base` on. -/
def copy (base : Nat) : Marked → Slot
  | .atom d single => atom d single
  | .list items => list (copyItems base items)
  | .dict none entries => dict (copyEntries base entries)
  | .dict (some mark) _ => link (base + mark)

def copyItems (base : Nat) : List Marked → List Slot
  | [] => []
  | item :: rest => copy base item :: copyItems base rest

def copyEntries (base : Nat) : List (Datum × Marked) → List (Datum × Slot)
  | [] => []
  | (key, value) :: rest => (key, copy base value) :: copyEntries base rest

end

/-- A value that shares nothing. -/
def ofDatum (d : Datum) : Slot := copy 0 (.ofDatum d)

end Slot

namespace Cells

/-- The mapping in a cell.  No mapping contains itself, so that one cell leads to another at most as
often as there are cells. -/
def read (cells : Cells) : Nat → Nat → Datum
  | 0, _ => .dict []
  | depth + 1, cell => .dict (Slot.plainEntries (cells.read depth) (cells.getD cell []))

end Cells

/-- A configuration in which a mapping may stand in several places. -/
structure SharedConfig where
  settings : List (Datum × Slot)
  cells : Cells := []

namespace SharedConfig

/-- The configuration as a tree. -/
def plain (c : SharedConfig) : Config :=
  ⟨Slot.plainEntries (c.cells.read c.cells.length) c.settings⟩

end SharedConfig

/-- The configuration, each of whose mappings stands in one place. -/
def Config.unshared (c : Config) : SharedConfig :=
  { settings := c.settings.map (Prod.map id Slot.ofDatum) }

instance : Coe Config SharedConfig := ⟨Config.unshared⟩

namespace SharedConfig

instance : Inhabited SharedConfig := ⟨Config.default⟩

def get (c : SharedConfig) (key : String) (default : Datum) : Datum := c.plain.get key default

/-! ### Merging -/

/-- A value that is taken over, and the cells with what is marked in it. -/
def taken (marked : List (List (Datum × Marked))) (value : Marked) (cells : Cells) : Slot × Cells :=
  (.copy cells.length value, cells ++ marked.map (Slot.copyEntries cells.length))

mutual

/-- A user's value beside the one that is there: mappings are merged, in every place where the one
that is there stands, and others replaced. -/
def mergeValue (marked : List (List (Datum × Marked))) (top : Bool) (key : Datum) :
    Marked → Option Slot → Cells → Slot × Cells
  | .dict mark user, old, cells =>
    if Config.namesKeymap top key then taken marked (.dict mark user) cells
    else
      let below := top && !key.truthy
      match old with
      | some (.dict entries) =>
        let (entries, cells) := mergeEntries marked below user entries cells
        (.dict entries, cells)
      | some (.link cell) =>
        let (entries, cells) := mergeEntries marked below user (cells.getD cell []) cells
        (.link cell, cells.set cell entries)
      | _ => taken marked (.dict mark user) cells
  | value, _, cells => taken marked value cells

def mergeEntries (marked : List (List (Datum × Marked))) (top : Bool) :
    List (Datum × Marked) → List (Datum × Slot) → Cells → List (Datum × Slot) × Cells
  | [], old, cells => (old, cells)
  | (key, value) :: rest, old, cells =>
    let (slot, cells) := mergeValue marked top key value (Datum.lookup key old) cells
    mergeEntries marked top rest (Datum.insert key slot old) cells

end

/-- Takes over what a document holds. -/
def merge (c : SharedConfig) (given : Document) : SharedConfig :=
  match given.value with
  | .dict _ user =>
    let (settings, cells) := mergeEntries given.marked true user c.settings c.cells
    ⟨settings, cells⟩
  | _ => c

/-- Takes a document over if the settings as a tree have taken it over. -/
def follow (c : SharedConfig) (given : Document)
    (loaded : Config × List Record × Except Failure Bool) :
    SharedConfig × List Record × Except Failure Bool :=
  match loaded with
  | (_, notes, .ok true) => (c.merge given, notes, .ok true)
  | (_, notes, answer) => (c, notes, answer)

/-- Takes over settings that were given as a value. -/
def loadDocument (c : SharedConfig) (user : Document) :
    SharedConfig × List Record × Except Failure Bool :=
  c.follow user (c.plain.loadDatum user.plain)

def loadDatum (c : SharedConfig) (user : Datum) :
    SharedConfig × List Record × Except Failure Bool :=
  c.loadDocument (.ofDatum user)

def load (c : SharedConfig) (fs : Files) (path : String) (yaml : YamlLibrary := Yaml.library) :
    SharedConfig × List Record × Except Failure Bool :=
  c.follow (Config.document fs path yaml) (c.plain.load fs path yaml)

/-! ### Writing -/

/-- Puts a value at the end of a path; whatever is no section on the way becomes an empty one. -/
def setAt (value : Slot) :
    List String → List (Datum × Slot) → Cells → List (Datum × Slot) × Cells
  | [], entries, cells => (entries, cells)
  | [name], entries, cells => (Datum.insert (.text name) value entries, cells)
  | name :: next :: rest, entries, cells =>
    match Datum.lookup (.text name) entries with
    | some (.link cell) =>
      let (inner, cells) := setAt value (next :: rest) (cells.getD cell []) cells
      (entries, cells.set cell inner)
    | found =>
      let inner := match found with
        | some (.dict es) => es
        | _ => []
      let (inner, cells) := setAt value (next :: rest) inner cells
      (Datum.insert (.text name) (.dict inner) entries, cells)

def set (c : SharedConfig) (key : String) (value : Datum) : SharedConfig :=
  let (settings, cells) := setAt (.ofDatum value) (Config.path key) c.settings c.cells
  ⟨settings, cells⟩

/-- Resets what is under a dotted key to the value that the settings as a tree have then. -/
def reset (c : SharedConfig) (key : String) : Except Failure (SharedConfig × Bool) := do
  let (tree, done) ← c.plain.reset key
  return (if done then c.set key (tree.get key .null) else c, done)

end SharedConfig

/-- The default configuration with the settings of a file, if one is named. -/
def Config.create (fs : Files) (path : Option String) (yaml : YamlLibrary := Yaml.library) :
    SharedConfig × List Record × Except Failure Unit :=
  let created : Record := ⟨.debug, .config, "ConfigManager initialized"⟩
  match path with
  | none | some "" => (Config.default, [created], .ok ())
  | some path =>
    match SharedConfig.load Config.default fs path yaml with
    | (c, notes, .ok _) => (c, notes ++ [created], .ok ())
    | (c, notes, .error e) => (c, notes, .error e)

end ChipEight
