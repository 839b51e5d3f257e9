import ChipEight.CommandLine.Options
import ChipEight.CommandLine.Session
import ChipEight.Config.Storage
import ChipEight.Picture.Frame
import ChipEight.Trace.Storage
/-!
The emulator on the command line: it loads a program, runs it for a number of cycles at the
configured clock rate, and writes what was asked for.
-/

namespace ChipEight.CommandLine

open Run

/-! ### Setting up -/

/-- The settings of the file that the options name, or the default ones. -/
def loadSettings (yaml : YamlLibrary) (o : Options) : Run Config := do
  match o.config.filter (!·.isEmpty) with
  | none => return Config.default
  | some path =>
    let (config, notes, result) := Config.default.load (← files) path yaml
    log notes
    unless ← orFail result do
      printError s!"error: could not load configuration from {path}"
      exit 1
    return config

/-- The settings with the clock that the options set, if they set one. -/
def setClock (o : Options) (config : Config) : Run Config := do
  match o.clock with
  | none => return config
  | some hz =>
    if hz ≤ 0 then
      printError "error: --clock-hz must be positive"
      exit 2
    return config.set "cpu.clock_hz" (.int hz)

/-- The configuration that the options ask for. -/
def configure (yaml : YamlLibrary) (o : Options) : Run Config := do
  if o.cycles < 0 then
    printError "error: --cycles must not be negative"
    exit 2
  setClock o (← loadSettings yaml o)

/-- The level from which log records are shown. -/
def consoleLevel (o : Options) (config : Config) : Level :=
  if o.debug then .debug
  else
    o.level.getD
      (match config.get "logging.level" (.text "INFO") with
        | .text name => (Level.ofName? name).getD .info
        | _ => .info)

/-- Opens the log file that the configuration names, if it names one. -/
def openLog (config : Config) : Run (Option String) := do
  let file := config.get "logging.file" .null
  if !file.truthy then return none
  match file with
  | .text path =>
    match (← files).makeMissingParent path with
    | .error e => fail (.file e)
    | .ok made =>
      setFiles made
      match made.openAppend (Files.trimSlashes path) with
      | .error e => fail (.file e)
      | .ok opened =>
        setFiles opened
        return some (Files.trimSlashes path)
  | _ => fail .wrongKind

/-- The trace, if anything asks for one. -/
def openTrace (o : Options) (config : Config) : Run (Option Trace) := do
  let wanted (path : Option String) : Bool := (path.map (!·.isEmpty)).getD false
  if wanted o.trace || wanted o.plot || (config.get "trace.enabled" .null).truthy then
    let limit ← match config.get "trace.max_history" .null with
      | .null => pure none
      | .number (.int n) => pure (some n)
      | .bool b => pure (some (if b then 1 else 0))
      | _ => fail .wrongKind
    let t ← orFail (Trace.create limit none)
    log (Trace.createNotes limit)
    return some t
  else return none

/-- Puts the journal's records into the lines. -/
def drain (s : System) : Run System := do
  log s.observers.journal.records.toList
  return s.mapObservers fun o => { o with journal := o.journal.blank }

/-- Keeps the records of an operation, then its result. -/
def drained {α : Type} (result : System × Except Failure α) : Run (System × Except Failure α) :=
  return (← drain result.1, result.2)

/-- The machine with everything that watches it; without a seed it draws from the given source. -/
def assemble (random : ByteSource) (o : Options) (config : Config) : Run System := do
  let console := consoleLevel o config
  let logFile ← openLog config
  modify fun s => { s with console := some console, logFile }
  log ErrorLog.createNotes
  let trace ← openTrace o config
  let threshold := if logFile.isSome then .debug else console
  let (bus, journal) := (Bus.create Bus.defaultLimit).enlistReporter
    (({ threshold } : Journal).addAll Bus.createNotes) [.toneStart, .toneEnd, .keyWait] .debug
  let observers : Observers := {
    bus, journal, trace, errors := some (ErrorLog.create ErrorLog.defaultLimit true) }
  let values ← orFail config.machine
  match (MachineConfig.override { unseeded := random } values).boot observers with
  | (seen, .error e) =>
    log seen.journal.records.toList
    fail e
  | (_, .ok s) => drain s

/-! ### Running -/

def ruler : String := "".pushn '=' 64

def printHeader (o : Options) (s : System) : Run Unit := do
  print ruler
  print "  CHIP-8 Emulator"
  print s!"  ROM: {o.rom}"
  print s!"  Cycles: {o.cycles} at {s.clock.text} Hz"
  print ruler

/-- Loads the program; a failure ends the run. -/
def load (o : Options) (s : System) : Run System := do
  let (s, result) ← drained (s.loadRom (← files) o.rom)
  match result with
  | .ok () => return s
  | .error (.file e) =>
    log [⟨.error, .errorLog, s!"Error loading ROM: {e.message}"⟩]
    exit 1
  | .error (.fault _) => exit 1
  | .error e => fail e

/-- Holds keys down, one after the other. -/
def holdKeys (keys : List Key) (s : System) : System :=
  keys.foldl (fun s k => (s.pressKey (.int k.val)).1) s

/-- A number of steps, each followed by its time. -/
def advance (tick : Number) : Nat → System → System × Except Failure Unit
  | 0, s => (s, .ok ())
  | n + 1, s =>
    match s.step with
    | (s, .error e) => (s, .error e)
    | (s, .ok _) =>
      match s.updateTimers tick with
      | (s, .error e) => (s, .error e)
      | (s, .ok _) => advance tick n s

/-- The progress bar, which sees the number of cycles before they are run: it lets them pass, or
fails. -/
abbrev ProgressBar := Int → Except Failure Unit

/-- A bar that does not try more cycles than a machine word counts. -/
def countingBar : ProgressBar := fun cycles =>
  if Number.wordLimit ≤ cycles then .error .beyondRange else .ok ()

/-- Runs the cycles.  A machine fault is told with the cycles completed before it. -/
def runCycles (bar : ProgressBar) (o : Options) (tick : Number) (s : System) : Run System := do
  orFail (bar o.cycles)
  let (s, result) ← drained (advance tick o.cycles.toNat s)
  match result with
  | .ok () => return s
  | .error (.fault f) =>
    printError s!"Fatal error after {s.cycleCount} cycles: {f.message}"
    exit 1
  | .error e => fail e

/-! ### Results -/

/-- The time that a number of cycles stands for, in seconds. -/
def simulatedTime (cycles : Nat) (tick : Number) : Float :=
  match ((Number.int cycles).mul? tick).bind Number.toFloat? with
  | some f => f
  | none => Number.infinity false

def printSummary (o : Options) (tick : Number) (s : System) : Run Unit := do
  tellTime s.cycleCount
  print s!"Cycles executed: {s.cycleCount}"
  print s!"Simulated time: {Number.fixedText 3 (simulatedTime s.cycleCount tick)}s"
  print s!"Unknown opcodes: {s.machine.unknownCount}"
  if o.ascii then print (s.machine.display.toAscii "#" ".")

/-- Writes the pictures that were asked for. -/
def writePictures (o : Options) (config : Config) (s : System) : Run Unit := do
  let screenshot := o.screenshot.filter (!·.isEmpty)
  let plot := o.plot.filter (!·.isEmpty)
  if screenshot.isNone && plot.isNone then return
  let style ← orFail (FrameStyle.create {
    scale := config.get "display.pixel_scale" .null
    on := config.get "display.on_color" .null
    off := config.get "display.off_color" .null })
  log FrameStyle.createNotes
  if let some path := screenshot then
    let (fs, result) := style.save s.machine.display.grid.rows (← files) path defaultResolution
    setFiles fs
    let _ ← orFail result
    log (FrameStyle.saveNotes path)
  if let some path := plot then
    let trace := s.observers.trace.getD default
    let (fs, notes, result) := trace.plot (← files) path none
    setFiles fs
    log notes
    let _ ← orFail result

/-- Writes the trace; its extension names the format, or else the configuration does. -/
def writeTrace (o : Options) (config : Config) (s : System) : Run Unit := do
  let some path := o.trace.filter (!·.isEmpty) | return
  let some trace := s.observers.trace | return
  let extension := (Text.lower (Files.extension path)).dropWhile (· == '.')
  let format :=
    if Trace.formats.contains extension.toString then extension.toString
    else (config.get "trace.format" .null).shown
  let (fs, journal, result) :=
    trace.save (← files) s.observers.journal path format Trace.noTime
  setFiles fs
  log journal.records.toList
  unless ← orFail result do exit 1

/-- What is shown and written of a system after its cycles. -/
def conclude (o : Options) (config : Config) (tick : Number) (s : System) : Run Unit := do
  printSummary o tick s
  writePictures o config s
  writeTrace o config s

/-- What a run takes from its surroundings. -/
structure Host where
  bar : ProgressBar
  yaml : YamlLibrary
  /-- What a machine without a seed draws its random bytes from. -/
  random : ByteSource

/-- A host with the project's own parts. -/
def Host.standard (random : ByteSource) : Host := ⟨countingBar, Yaml.library, random⟩

/-- The configuration, and the machine with its program loaded and its keys held down. -/
def prepare (host : Host) (o : Options) : Run (Config × System) := do
  let config ← configure host.yaml o
  let s ← assemble host.random o config
  printHeader o s
  let s ← load o s
  return (config, ← drain (holdKeys o.press s))

/-- The whole run. -/
def emulate (host : Host) (o : Options) : Run Unit := do
  let (config, s) ← prepare host o
  let tick ← orFail s.stepTime
  conclude o config tick (← runCycles host.bar o tick s)

/-- What a program with options does when its command line ends early. -/
def stop (program : String) (options : List Flag) : Stop → Run Unit
  | .help => print (usage program options)
  | .version => print s!"{program} {version}"
  | .refused r => do
    printError (usage program options)
    printError s!"{program}: error: {r.message}"
    exit 2

/-- The emulator on a host, called with arguments among the given files. -/
def emulatorOn (host : Host) (arguments : List String) (fs : Files) : Outcome :=
  Run.finish (match Options.read arguments with
    | .ok o => emulate host o
    | .error early => stop programName emulatorFlags early) fs

/-- The emulator on a host of the project's own parts, whose machine draws zeros without a seed. -/
def emulator (arguments : List String) (fs : Files) : Outcome :=
  emulatorOn (.standard (.listed [])) arguments fs

end ChipEight.CommandLine
