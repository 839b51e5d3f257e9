import ChipEight.Datum
import ChipEight.Files
import ChipEight.Journal
import ChipEight.Json.Printer
import ChipEight.Json.Reader
import ChipEight.Window
/-!
The error log: every error that is reported becomes a record with a level and a category, goes into
the journal and into a bounded history, and is shown to the callback of its category.
-/

namespace ChipEight

inductive Category where
  | system | configuration | rom | memory | stack | instruction | input | unknown
  deriving DecidableEq, Repr, Inhabited

namespace Category

def all : List Category :=
  [system, configuration, rom, memory, stack, instruction, input, unknown]

def name : Category → String
  | system => "SYSTEM"
  | configuration => "CONFIGURATION"
  | rom => "ROM"
  | memory => "MEMORY"
  | stack => "STACK"
  | instruction => "INSTRUCTION"
  | input => "INPUT"
  | unknown => "UNKNOWN"

def ofName? (s : String) : Option Category := all.find? (·.name == s)

end Category

def Fault.category : Fault → Category
  | romTooLarge .. => .rom
  | addressOutOfRange .. => .memory
  | stackOverflow .. => .stack
  | stackUnderflow .. => .stack
  | unknownInstruction .. => .instruction

/-- A kind of errors that a host brings along. -/
structure ForeignKind where
  name : String
  named : name ≠ "" := by decide
  category : Category := .unknown
  fatal : Bool := true
  deriving Repr

/-- What is reported: a fault of the machine, an error of the machine without a kind of its own, an
error of the host, or an error of a kind that the host brings along, with its own words. -/
inductive Cause where
  | fault (f : Fault)
  | general (details : List Datum)
  | badValue (details : List Datum)
  | missingKey (details : List Datum)
  | runtime (details : List Datum)
  | foreign (kind : ForeignKind) (text : String) (details : List Datum)
  deriving Repr

namespace Cause

def name : Cause → String
  | fault f => f.name
  | general _ => "Chip8Error"
  | badValue _ => "ValueError"
  | missingKey _ => "KeyError"
  | runtime _ => "RuntimeError"
  | foreign kind _ _ => kind.name

/-- Several details stand in parentheses. -/
def detailsText : List Datum → String
  | [] => ""
  | [d] => d.shown
  | ds => "(" ++ ", ".intercalate (ds.map Datum.literal) ++ ")"

def message : Cause → String
  | fault f => f.message
  | missingKey [key] => key.literal
  | foreign _ text _ => text
  | general ds | badValue ds | missingKey ds | runtime ds => detailsText ds

def details : Cause → List Datum
  | fault f => [.text f.message]
  | general ds | badValue ds | missingKey ds | runtime ds | foreign _ _ ds => ds

def category : Cause → Category
  | fault f => f.category
  | general _ => .system
  | foreign kind _ _ => kind.category
  | _ => .unknown

def fatal : Cause → Bool
  | fault f => f.fatal
  | foreign kind _ _ => kind.fatal
  | _ => true

end Cause

/-- A cause, and whether it has come up in a run rather than been made for the report. -/
structure Incident where
  cause : Cause
  raised : Bool
  deriving Repr

structure ErrorRecord where
  level : Level
  category : Category
  message : String
  cause : Option Cause
  traced : Bool
  context : Datum
  deriving Repr, Inhabited

/-- What is called with the records of a category: it leaves a mark, and may then fail. -/
structure Callback where
  tag : String
  fails : Bool
  deriving DecidableEq, Repr

structure ErrorLog where
  keeps : Bool
  limit : Int
  history : List ErrorRecord := []
  callbacks : List (Category × Callback) := []
  deriving Repr, Inhabited

/-- How often something occurs, in the order of the first occurrences. -/
def countBy {α β : Type} [BEq β] (key : α → Option β) (xs : List α) : List (β × Nat) :=
  let keys := xs.filterMap key
  keys.eraseDups.map fun k => (k, keys.count k)

structure ErrorSummary where
  total : Nat
  byCategory : List (Category × Nat)
  byLevel : List (Level × Nat)
  byCause : List (String × Nat)
  latest : Option ErrorRecord

namespace ErrorLog

def defaultLimit : Int := 100

def create (limit : Int) (keeps : Bool) : ErrorLog := { keeps, limit }

def createNotes : List Record := [⟨.debug, .errorLog, "Error handler initialized"⟩]

/-- What is known about an error that is to be reported. -/
structure Report where
  incident : Option Incident := none
  message : Option String := none
  level : Level := .error
  category : Option Category := none
  context : Datum := .null

def Report.toRecord (r : Report) : ErrorRecord :=
  let cause := r.incident.map (·.cause)
  { level := r.level
    category := r.category.getD ((cause.map Cause.category).getD .unknown)
    message := r.message.getD ((cause.map Cause.message).getD "Unknown error")
    cause
    traced := (r.incident.map (·.raised)).getD false
    context := if r.context.truthy then r.context else .dict [] }

def recordNotes (r : ErrorRecord) : List Record :=
  ⟨r.level, .errorLog, r.message ++ " (" ++ r.category.name ++ ")"⟩ ::
    if r.traced then
      [⟨.debug, .errorLog, "Traceback: " ++ ((r.cause.map Cause.message).getD "")⟩]
    else []

def keep (log : ErrorLog) (r : ErrorRecord) : ErrorLog :=
  if log.keeps then { log with history := retain log.limit (log.history ++ [r]) } else log

/-- Calls the callback of the record's category. -/
def notify (log : ErrorLog) (r : ErrorRecord) (j : Journal) : Journal :=
  match log.callbacks.lookup r.category with
  | none => j
  | some c =>
    let j := j.mark (c.tag ++ ":" ++ r.category.name ++ ":" ++ r.message)
    if c.fails then j.note .error .errorLog fun _ => "Error in error handler: " ++ c.tag else j

def handle (log : ErrorLog) (j : Journal) (report : Report) : ErrorLog × Journal × ErrorRecord :=
  let r := report.toRecord
  (log.keep r, log.notify r (j.addAll (recordNotes r)), r)

/-- Reports what has come up, at the level that its fatality implies. -/
def report (log : ErrorLog) (j : Journal) (incident : Incident) (context : Datum) :
    ErrorLog × Journal × ErrorRecord :=
  log.handle j
    { incident, level := if incident.cause.fatal then .error else .warning, context }

def warn (log : ErrorLog) (j : Journal) (message : String) (category : Option Category)
    (context : Datum) : ErrorLog × Journal × ErrorRecord :=
  log.handle j { message, level := .warning, category := category.getD .unknown, context }

/-- Reports the failure of a named operation of the host. -/
def reportBoundary (log : ErrorLog) (j : Journal) (name module : String) (cause : Cause)
    (category : Option Category) : ErrorLog × Journal × ErrorRecord :=
  log.handle j
    { incident := some ⟨cause, true⟩
      message := some s!"Error in {name}: {cause.message}"
      category
      context := .record [("function", .text name), ("module", .text module)] }

def register (log : ErrorLog) (category : Category) (callback : Callback) : ErrorLog :=
  { log with
    callbacks := (category, callback) :: log.callbacks.filter (·.1 != category) }

def registerNotes (category : Category) : List Record :=
  [⟨.debug, .errorLog, s!"Registered handler for {category.name} errors"⟩]

/-- Forgets a category's callback; says whether there was one. -/
def unregister (log : ErrorLog) (category : Category) : ErrorLog × Bool :=
  ({ log with callbacks := log.callbacks.filter (·.1 != category) },
    log.callbacks.any (·.1 == category))

def unregisterNotes (category : Category) (found : Bool) : List Record :=
  if found then [⟨.debug, .errorLog, s!"Unregistered handler for {category.name} errors"⟩] else []

def clear (log : ErrorLog) : ErrorLog := { log with history := [] }

def clearNotes : List Record := [⟨.debug, .errorLog, "Cleared error history"⟩]

/-- The records of a level and a category, and of these only the last `limit`. -/
def query (log : ErrorLog) (level : Option Level) (category : Option Category)
    (limit : Option Int) : List ErrorRecord :=
  let found := log.history.filter fun r =>
    (level.map (· == r.level)).getD true && (category.map (· == r.category)).getD true
  match limit with
  | none => found
  | some limit => if limit == 0 then found else retain limit found

def summary (log : ErrorLog) : ErrorSummary :=
  { total := log.history.length
    byCategory := countBy (fun r => some r.category) log.history
    byLevel := countBy (fun r => some r.level) log.history
    byCause := countBy (fun r => r.cause.map Cause.name) log.history
    latest := log.history.getLast? }

end ErrorLog

/-! ### As data -/

def ErrorRecord.toDatum (r : ErrorRecord) : Datum :=
  .record [
    ("level", .text r.level.name),
    ("category", .text r.category.name),
    ("message", .text r.message),
    ("exception_type", (r.cause.map fun c => .text c.name).getD .null),
    ("exception_args", (r.cause.map fun c => .list c.details).getD .null),
    ("traceback", .bool r.traced),
    ("context", r.context)]

def ErrorSummary.toDatum (s : ErrorSummary) : Datum :=
  let counts (cs : List (String × Nat)) : Datum := .record (cs.map fun (k, n) => (k, .int n))
  .record [
    ("total", .int s.total),
    ("by_category", counts (s.byCategory.map fun (c, n) => (c.name, n))),
    ("by_level", counts (s.byLevel.map fun (l, n) => (l.name, n))),
    ("by_exception", counts s.byCause),
    ("latest", (s.latest.map ErrorRecord.toDatum).getD .null)]

namespace ErrorLog

/-- Everything that an exported report tells. -/
def toDatum (log : ErrorLog) : Datum :=
  .record [
    ("timestamp", .null),
    ("summary", log.summary.toDatum),
    ("errors", .list (log.history.map ErrorRecord.toDatum))]

/-- Writes the report into a file, making the directory that it needs. -/
def writeReport (log : ErrorLog) (fs : Files) (path : String) : Files × Except FileError Unit :=
  match fs.makeParent path with
  | .error e => (fs, .error e)
  | .ok fs =>
    match fs.writeText path (Json.print log.toDatum) with
    | .error e => (fs, .error e)
    | .ok fs => (fs, .ok ())

/-- Exports the report; says whether that was possible. -/
def «export» (log : ErrorLog) (fs : Files) (j : Journal) (path : String) :
    Files × Journal × Bool :=
  match log.writeReport fs path with
  | (fs, .ok ()) => (fs, j.note .info .errorLog fun _ => "Exported error report to " ++ path, true)
  | (fs, .error e) =>
    (fs, j.note .error .errorLog fun _ => "Error exporting error report: " ++ e.message, false)

/-- What a report's file tells when it is read: its parts in alphabetic order, the number of errors,
and the errors. -/
def readReport (fs : Files) (path : String) : Except Failure (List Datum) := do
  match Json.read (← fs.readText path) with
  | .error _ => throw .wrongKind
  | .ok report =>
    let names ← (← report.items).mapM fun
      | .text name => .ok name
      | _ => .error .wrongKind
    let total ← (← report.index "summary").index "total"
    return [.list ((names.mergeSort (· ≤ ·)).map Datum.text), total, ← report.index "errors"]

end ErrorLog
end ChipEight
