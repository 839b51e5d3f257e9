import ChipEight.Files
import ChipEight.Json.Printer
import ChipEight.Json.Reader
import ChipEight.Text.Lowercase
import ChipEight.Trace.Query
/-!
Traces in files: written as JSON or as a table with commas, read back from JSON.
-/

namespace ChipEight.Trace

/-! ### Tables -/

/-- A cell with a comma, a quote or a line end stands in quotes, its own quotes doubled. -/
def cell (s : String) : String :=
  if s.toList.any fun c => c == ',' || c == '"' || c == '\r' || c == '\n' then
    "\"" ++ String.ofList (s.toList.flatMap fun c => if c == '"' then ['"', '"'] else [c]) ++ "\""
  else s

def row (cells : List String) : String := ",".intercalate (cells.map cell) ++ "\r\n"

/-- A value in a cell; nothing for null. -/
def cellText : Datum → String
  | .null => ""
  | d => d.shown

/-- An opcode in four hexadecimal digits. -/
def opcodeText : Datum → Except Failure String
  | .number (.int i) => .ok (hexText 4 i)
  | .bool b => .ok (hexText 4 (if b then 1 else 0))
  | .number (.float _) => .error (.badValue (.notHexadecimal "float"))
  | .text _ => .error (.badValue (.notHexadecimal "str"))
  | _ => .error .wrongKind

def stateRow (names : List Datum) (index : Nat) (s : Datum) : Except Failure String := do
  let registers ← s.getD "registers" (.dict [])
  let cycle ← s.getD "cycle" (.text "")
  let pc ← s.getD "pc" (.text "")
  let opcode ← match s.field? "opcode" with
    | some d => opcodeText d
    | none => pure ""
  let mnemonic ← s.getD "mnemonic" (.text "")
  let values ← match registers with
    | .dict rs => pure (names.map fun n => (Datum.lookup n rs).getD (.text ""))
    | _ => if names.isEmpty then pure [] else throw .lacking
  return row ([toString index, cellText cycle, cellText pc, opcode, cellText mnemonic] ++
    values.map cellText)

/-- The rows up to the first snapshot that makes none. -/
def stateRows (names : List Datum) : Nat → List Datum → String × Except Failure Unit
  | _, [] => ("", .ok ())
  | index, s :: rest =>
    match stateRow names index s with
    | .error e => ("", .error e)
    | .ok text =>
      let (more, result) := stateRows names (index + 1) rest
      (text ++ more, result)

def tableHead (names : List Datum) : String :=
  row (["record_idx", "cycle", "pc", "opcode", "mnemonic"] ++
    names.map fun n => "reg_" ++ n.shown)

/-! ### Saving -/

/-- What a saved trace holds. -/
def toDatum (t : Trace) (clock : Clock) : Except Failure Datum := do
  let statistics ← t.statistics clock.elapsed
  return .record [("history", .list t.history), ("statistics", statistics.toDatum clock)]

/-- Writes a trace whose format is known; the files are those left behind also when that fails. -/
def writeTo (t : Trace) (fs : Files) (path format : String) (clock : Clock) :
    Files × Except Failure Unit :=
  match fs.makeMissingParent path with
  | .error e => (fs, .error (.file e))
  | .ok fs =>
    let store (text : String) (result : Except Failure Unit) : Files × Except Failure Unit :=
      match fs.writeText path text with
      | .error e => (fs, .error (.file e))
      | .ok fs => (fs, result)
    if format == "json" then
      match t.toDatum clock with
      | .error e => (fs, .error e)
      | .ok d => store (Json.print d) (.ok ())
    else
      match sortNames t.names with
      | .error e => (fs, .error e)
      | .ok names =>
        let (rows, result) := stateRows names 0 t.history
        store (tableHead names ++ rows) result

/-- Saves the trace; says whether that was possible. -/
def save (t : Trace) (fs : Files) (j : Journal) (path format : String) (clock : Clock) :
    Files × Journal × Except Failure Bool :=
  if formats.contains format then
    match t.writeTo fs path format clock with
    | (fs, .ok ()) =>
      (fs, j.note .info .recorder fun _ =>
        "Saved state history to " ++ path ++ " in " ++ format ++ " format", .ok true)
    | (fs, .error (.file e)) =>
      (fs, j.note .error .recorder fun _ => "Error saving history: " ++ e.message, .ok false)
    | (fs, .error e) => (fs, j, .error e)
  else (fs, j.note .error .recorder fun _ => "Unsupported format: " ++ format, .ok false)

/-! ### Loading -/

/-- Takes over the history of a saved trace.  The trace is cleared first. -/
def restore (t : Trace) (saved : Datum) : Trace × Except Failure Unit :=
  let t := t.clear
  match saved.getD "history" (.list []) with
  | .error e => (t, .error e)
  | .ok history =>
    match history.items with
    | .error e => (t, .error e)
    | .ok states => t.addAll states

/-- Loads a trace that was saved as JSON; says whether that was possible. -/
def load (t : Trace) (fs : Files) (j : Journal) (path : String) :
    Trace × Journal × Except Failure Bool :=
  let extension := Files.extension path
  if Text.lower extension != ".json" then
    (t, j.note .error .recorder fun _ => "Unsupported file format: " ++ extension, .ok false)
  else
    let refuse (reason : String) : Trace × Journal × Except Failure Bool :=
      (t, j.note .error .recorder fun _ => "Error loading history: " ++ reason, .ok false)
    match fs.readText path with
    | .error (.file e) => refuse e.message
    | .error e => (t, j, .error e)
    | .ok text =>
      match Json.read text with
      | .error m => refuse (m.message text.toList)
      | .ok saved =>
        match t.restore saved with
        | (t, .ok ()) =>
          (t, j.note .info .recorder fun _ => "Loaded state history from " ++ path, .ok true)
        | (t, .error e) => (t, j, .error e)

end ChipEight.Trace
