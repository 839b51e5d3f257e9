import ChipEight.CommandLine.Arguments
/-!
The options of the emulator and of the trace analysis.
-/

namespace ChipEight.CommandLine

def programName : String := "chip8-emulator"

def version : String := "1.0.0"

structure Options where
  rom : String
  cycles : Int := 600
  clock : Option Int := none
  config : Option String := none
  level : Option Level := none
  debug : Bool := false
  press : List Key := []
  trace : Option String := none
  screenshot : Option String := none
  plot : Option String := none
  ascii : Bool := false
  deriving Repr

def helpFlag : Flag := ⟨["-h", "--help"], .help, false⟩

/-- The options of the emulator, in the order in which ambiguous ones are listed. -/
def emulatorFlags : List Flag := [
  helpFlag,
  ⟨["--rom"], .text, true⟩,
  ⟨["--cycles"], .integer, false⟩,
  ⟨["--clock-hz"], .integer, false⟩,
  ⟨["--config"], .text, false⟩,
  ⟨["--log-level"], .level, false⟩,
  ⟨["--debug"], .flag, false⟩,
  ⟨["--press"], .key, false⟩,
  ⟨["--trace"], .text, false⟩,
  ⟨["--screenshot"], .text, false⟩,
  ⟨["--plot-registers"], .text, false⟩,
  ⟨["--ascii"], .flag, false⟩,
  ⟨["--version"], .version, false⟩]

def Options.read (arguments : List String) : Except Stop Options := do
  let given ← readArguments emulatorFlags arguments
  return {
    rom := (lastOf "--rom" Value.text? given).getD ""
    cycles := (lastOf "--cycles" Value.integer? given).getD 600
    clock := lastOf "--clock-hz" Value.integer? given
    config := lastOf "--config" Value.text? given
    level := lastOf "--log-level" Value.level? given
    debug := isSet "--debug" given
    press := (valuesOf "--press" given).filterMap Value.key?
    trace := lastOf "--trace" Value.text? given
    screenshot := lastOf "--screenshot" Value.text? given
    plot := lastOf "--plot-registers" Value.text? given
    ascii := isSet "--ascii" given }

/-- What the trace analysis is asked to do. -/
structure AnalysisOptions where
  rom : String
  cycles : Int := 1000
  register : String := "V0"
  deriving Repr

def analysisFlags : List Flag := [
  helpFlag,
  ⟨["--rom"], .text, true⟩,
  ⟨["--cycles"], .integer, false⟩,
  ⟨["--register"], .text, false⟩]

def AnalysisOptions.read (arguments : List String) : Except Stop AnalysisOptions := do
  let given ← readArguments analysisFlags arguments
  return {
    rom := (lastOf "--rom" Value.text? given).getD ""
    cycles := (lastOf "--cycles" Value.integer? given).getD 1000
    register := (lastOf "--register" Value.text? given).getD "V0" }

/-- How to call a program that has these options. -/
def usage (program : String) (options : List Flag) : String :=
  let one (o : Flag) : String :=
    let name := o.names.headD ""
    let shown := if o.takesValue then name ++ " VALUE" else name
    if o.required then shown else "[" ++ shown ++ "]"
  let list := " ".intercalate (options.map one)
  s!"usage: {program} {list}"

end ChipEight.CommandLine
