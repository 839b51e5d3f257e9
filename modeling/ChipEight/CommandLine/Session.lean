import ChipEight.Files
import ChipEight.Journal
/-!
What a run of a program shows: lines for its output and for its errors, log records in between, and
the files it leaves.  Log records reach the output from the console's level up, and all of them the
log file if there is one.  A run knows no time: times are filled in at the very end.
-/

namespace ChipEight.CommandLine

inductive Line where
  | output (text : String)
  | error (text : String)
  | log (record : Record)
  /-- The record of how long a number of cycles took. -/
  | took (cycles : Nat)
  deriving DecidableEq, Repr

/-- The times of a run, as texts: what stands before a log line, and how long the cycles took. -/
structure Times where
  stamp : String
  elapsed : String

/-- The log record that a line stands for. -/
def Line.record? (times : Times) : Line → Option Record
  | .output _ | .error _ => none
  | .log r => some r
  | .took cycles => some ⟨.info, .errorLog, s!"Executed {cycles} cycles in {times.elapsed}s"⟩

/-- How a run ends: with a status for the host, or with a failure that nothing catches. -/
inductive Ending where
  | exit (status : Nat)
  | failure (e : Failure)
  deriving Repr

structure Session where
  /-- The lines so far, the newest first. -/
  lines : List Line := []
  files : Files
  /-- From where up log records are shown; without a level logging has not been set up, and
  warnings and worse go to the errors as they are. -/
  console : Option Level := none
  logFile : Option String := none

abbrev Run := ExceptT Ending (StateM Session)

namespace Run

def print (text : String) : Run Unit := modify fun s => { s with lines := .output text :: s.lines }

def printError (text : String) : Run Unit :=
  modify fun s => { s with lines := .error text :: s.lines }

/-- The line that a record makes, if it makes one. -/
def lineOf (s : Session) (r : Record) : Option Line :=
  match s.console with
  | some _ => some (.log r)
  | none => if Level.warning.rank ≤ r.level.rank then some (.error r.message) else none

def log (records : List Record) : Run Unit :=
  modify fun s => { s with lines := (records.filterMap (lineOf s)).reverse ++ s.lines }

def tellTime (cycles : Nat) : Run Unit :=
  modify fun s => { s with lines := .took cycles :: s.lines }

def exit {α : Type} (status : Nat) : Run α := throw (.exit status)

def fail {α : Type} (e : Failure) : Run α := throw (.failure e)

def orFail {α : Type} : Except Failure α → Run α
  | .ok a => pure a
  | .error e => fail e

def files : Run Files := return (← get).files

def setFiles (fs : Files) : Run Unit := modify fun s => { s with files := fs }

end Run

/-- A finished run. -/
structure Outcome where
  session : Session
  ending : Ending

namespace Outcome

/-- A log record as a line, behind the time of its making. -/
def logLine (times : Times) (r : Record) : String :=
  s!"{times.stamp} - {r.speaker.name} - {r.level.name} - {r.message}"

def collect (pick : Line → Option String) (o : Outcome) : String :=
  o.session.lines.reverse.foldl (fun text line =>
    match pick line with
    | some more => text ++ more ++ "\n"
    | none => text) ""

/-- Whether a record is shown on the console. -/
def shows (s : Session) (r : Record) : Bool :=
  match s.console with
  | some level => level.rank ≤ r.level.rank
  | none => false

def output (o : Outcome) (times : Times) : String :=
  o.collect fun
    | .output text => some text
    | line => ((line.record? times).filter (shows o.session)).map (logLine times)

def errors (o : Outcome) : String :=
  o.collect fun
    | .error text => some text
    | _ => none

/-- The files after the run, the log file with all its lines. -/
def files (o : Outcome) (times : Times) : Files :=
  match o.session.logFile with
  | none => o.session.files
  | some path =>
    let lines := o.collect fun line => (line.record? times).map (logLine times)
    match o.session.files.read path with
    | .error _ => o.session.files
    | .ok content =>
      (o.session.files.write path (content ++ lines.toUTF8)).toOption.getD o.session.files

end Outcome

/-- Runs a program to its end. -/
def Run.finish (run : Run Unit) (fs : Files) : Outcome :=
  match (run.run.run { files := fs } : Except Ending Unit × Session) with
  | (.ok (), s) => ⟨s, .exit 0⟩
  | (.error e, s) => ⟨s, e⟩

end ChipEight.CommandLine
