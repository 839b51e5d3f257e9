import ChipEight.CommandLine.Options
import ChipEight.CommandLine.Session
import ChipEight.System
import ChipEight.Trace.Query
/-!
The trace analysis on the command line: it runs a program with a trace and tells which instructions
ran most, which addresses were hot, and where a register changed.
-/

namespace ChipEight.CommandLine

open Run

/-- A text filled with blanks behind it. -/
def padEnd (width : Nat) (s : String) : String := s.pushn ' ' (width - s.length)

/-- A text filled with blanks before it. -/
def padStart (width : Nat) (s : String) : String := "".pushn ' ' (width - s.length) ++ s

/-- How many of the changes of a register are listed. -/
def listedChanges : Nat := 10

def hotLimit : Int := 5

/-- The line of a change of a register. -/
def changeLine (change : Datum) : String :=
  let part (name : String) : String := ((change.field? name).getD .null).shown
  let cycle := padStart 6 (part "cycle")
  let old := part "old_value"
  let new := part "new_value"
  let mnemonic := part "mnemonic"
  s!"  cycle {cycle}: {old} -> {new} ({mnemonic})"

/-- What is told about a run. -/
def report (t : Trace) (register : String) (display : Display) : Except Failure (List String) := do
  let mix ← t.opcodeHistogram
  let hot ← t.hotAddresses (some hotLimit)
  let changes ← t.changes register .null .null
  return ["\nInstruction mix:"] ++
    mix.map (fun (word, n) => s!"  {padEnd 6 word} {n}") ++
    ["\nHot addresses:"] ++
    hot.map (fun (pc, n) =>
      let address := match pc with
        | .number (.int i) => hexText 3 i
        | d => d.shown
      s!"  0x{address}  {n}") ++
    [s!"\n{register} changed {changes.length} times"] ++
    (changes.take listedChanges).map changeLine ++
    ["\nFinal frame:", display.toAscii "#" "."]

/-- The whole run. -/
def analyze (o : AnalysisOptions) : Run Unit := do
  let trace ← orFail (Trace.create (some o.cycles) none)
  let observers : Observers := {
    bus := Bus.create Bus.defaultLimit, errors := none, trace := some trace
    journal := { threshold := .critical } }
  let s ← orFail ((MachineConfig.boot {} observers).2)
  match s.loadRom (← files) o.rom with
  | (_, .error (.file _)) | (_, .error (.fault _)) => exit 1
  | (_, .error e) => fail e
  | (s, .ok ()) =>
    let (s, result) := s.runCycles o.cycles
    match result with
    | .ok _ | .error (.fault _) =>
      let lines ← orFail (report (s.observers.trace.getD trace) o.register s.machine.display)
      lines.forM print
    | .error e => fail e

/-- The trace analysis, called with arguments among the given files. -/
def analysis (arguments : List String) (fs : Files) : Outcome :=
  Run.finish (match AnalysisOptions.read arguments with
    | .ok o => analyze o
    | .error .help => print (usage "trace-analysis" analysisFlags)
    | .error _ => exit 2) fs

end ChipEight.CommandLine
