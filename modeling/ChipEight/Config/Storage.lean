import ChipEight.Config.Rules
import ChipEight.Json.Printer
import ChipEight.Json.Reader
import ChipEight.Marked
import ChipEight.Yaml.Printer
import ChipEight.Yaml.Reader
/-!
Configurations in files: JSON and YAML are read by the file's extension and written by a format's
name.  A file that cannot be read, holds no mapping or breaks a rule leaves the configuration as it
was.  YAML is left to a library, of which nothing is taken for granted here.
-/

namespace ChipEight

/-- A library for YAML. -/
structure YamlLibrary where
  /-- The value of a text, or what is wrong with it; `name` is the file's. -/
  read (name text : String) : Except String Document
  print (d : Datum) : String

/-- The library that comes with the project. -/
def Yaml.library : YamlLibrary where
  read name text := (Yaml.read text).mapError fun m => m.message name text.toList
  print := Yaml.print

namespace Config

def complaint (message : String) : Record := ⟨.error, .config, message⟩

def problemNotes (problems : List String) : List Record :=
  problems.map fun p => complaint s!"Configuration validation error: {p}"

inductive Format where
  | json | yaml
  deriving DecidableEq, Repr

def Format.ofExtension? : String → Option Format
  | ".json" => some .json
  | ".yaml" | ".yml" => some .yaml
  | _ => none

def Format.ofName? : String → Option Format
  | "json" => some .json
  | "yaml" | "yml" => some .yaml
  | _ => none

/-- The value of a text in a format, or what is wrong with the text; `name` is the file's.  An empty
YAML text stands for an empty mapping. -/
def Format.parse (yaml : YamlLibrary) (format : Format) (name text : String) :
    Except String Datum :=
  match format with
  | .json => (Json.read text).mapError fun m => m.message text.toList
  | .yaml => (yaml.read name text).map fun d => if d.plain.truthy then d.plain else .dict []

/-- The value of a text with its mappings that stand in several places. -/
def Format.document (yaml : YamlLibrary) (format : Format) (name text : String) : Document :=
  match format with
  | .json => ((Json.read text).toOption.map Document.ofDatum).getD (.ofDatum .null)
  | .yaml => (yaml.read name text).toOption.getD (.ofDatum .null)

def Format.print (yaml : YamlLibrary) (format : Format) (d : Datum) : String :=
  match format with
  | .json => Json.print d
  | .yaml => yaml.print d

/-- Takes over settings that were given as a value. -/
def loadDatum (c : Config) (user : Datum) : Config × List Record × Except Failure Bool :=
  match c.accept user with
  | .error e => (c, [], .error e)
  | .ok (c, []) => (c, [⟨.debug, .config, "Configuration loaded from dictionary"⟩], .ok true)
  | .ok (c, problems) => (c, problemNotes problems, .ok false)

/-- Takes over the settings of a file. -/
def load (c : Config) (fs : Files) (path : String) (yaml : YamlLibrary := Yaml.library) :
    Config × List Record × Except Failure Bool :=
  let refused (message : String) : Config × List Record × Except Failure Bool :=
    (c, [complaint message], .ok false)
  if !fs.exists path then refused s!"Configuration file not found: {path}"
  else
    let extension := Text.lower (Files.extension path)
    match Format.ofExtension? extension with
    | none => refused s!"Unsupported configuration format: {extension}"
    | some format =>
      match fs.readText path with
      | .error (.file e) => refused s!"Error loading configuration: {e.message}"
      | .error e => (c, [], .error e)
      | .ok text =>
        match format.parse yaml path text with
        | .error problem => refused s!"Error loading configuration: {problem}"
        | .ok (.dict es) =>
          match c.accept (.dict es) with
          | .error e => (c, [], .error e)
          | .ok (c, []) =>
            (c, [⟨.info, .config, s!"Configuration loaded from {path}"⟩], .ok true)
          | .ok (c, problems) => (c, problemNotes problems, .ok false)
        | .ok _ => refused s!"Configuration root must be a mapping: {path}"

/-- What a file holds, with its mappings that stand in several places; null if it cannot be read. -/
def document (fs : Files) (path : String) (yaml : YamlLibrary) : Document :=
  match Format.ofExtension? (Text.lower (Files.extension path)) with
  | none => .ofDatum .null
  | some format =>
    match fs.readText path with
    | .ok text => format.document yaml path text
    | .error _ => .ofDatum .null

/-- Writes the configuration to a file, whose directory is made if it is missing. -/
def save (c : Config) (fs : Files) (path format : String) (yaml : YamlLibrary := Yaml.library) :
    Files × List Record × Bool :=
  match Format.ofName? (Text.lower format) with
  | none => (fs, [complaint s!"Unsupported configuration format: {format}"], false)
  | some f =>
    match fs.makeMissingParent path with
    | .error e => (fs, [complaint s!"Error saving configuration: {e.message}"], false)
    | .ok fs =>
      match fs.writeText path (f.print yaml c.toDatum) with
      | .error e => (fs, [complaint s!"Error saving configuration: {e.message}"], false)
      | .ok fs => (fs, [⟨.info, .config, s!"Configuration saved to {path}"⟩], true)

end Config
end ChipEight
