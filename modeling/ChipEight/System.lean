import ChipEight.Files
import ChipEight.Observers
import ChipEight.Text.Lowercase
/-!
The whole system: a machine, the program it runs, the clock that says how many steps a time is
worth, the host's keys, and everything that observes it.  The observers hear of each step, load and
key, but what the machine does never depends on them.
-/

namespace ChipEight

def defaultClock : Nat := 700

/-- The host keys and the keypad keys they stand for. -/
def defaultKeymap : List (String × Int) := [
  ("1", 1), ("2", 2), ("3", 3), ("4", 12),
  ("q", 4), ("w", 5), ("e", 6), ("r", 13),
  ("a", 7), ("s", 8), ("d", 9), ("f", 14),
  ("z", 10), ("x", 0), ("c", 11), ("v", 15)]

/-- What a machine is built from. -/
structure MachineConfig where
  clock : Number := .int defaultClock
  timerRate : Number := .int defaultTimerRate
  memorySize : Int := defaultMemorySize
  programStart : Int := defaultProgramStart
  stackDepth : Int := defaultStackDepth
  width : Int := defaultWidth
  height : Int := defaultHeight
  seed : Option Int := none
  /-- Where random bytes come from if there is no seed. -/
  unseeded : ByteSource := .listed []
  keymap : List (Datum × Datum) := defaultKeymap.map fun (k, v) => (.text k, .int v)
  deriving Repr, Inhabited

/-- The configuration with the values that a mapping gives in place of its own; values of other
kinds than expected are passed over. -/
def MachineConfig.override (base : MachineConfig) (d : Datum) : MachineConfig :=
  let number (name : String) (default : Number) : Number :=
    match d.field? name with
    | some (.number n) => n
    | _ => default
  let whole (name : String) (default : Int) : Int :=
    match d.field? name with
    | some (.number (.int i)) => i
    | _ => default
  let (width, height) : Int × Int := match d.field? "resolution" with
    | some (.list [.number (.int w), .number (.int h)]) => (w, h)
    | _ => (base.width, base.height)
  { clock := number "cpu_freq_hz" base.clock
    timerRate := number "timer_freq_hz" base.timerRate
    memorySize := whole "memory_size" base.memorySize
    programStart := whole "program_start" base.programStart
    stackDepth := whole "stack_depth" base.stackDepth
    width
    height
    seed := match d.field? "random_seed" with
      | some (.number (.int i)) => some i
      | _ => base.seed
    unseeded := base.unseeded
    keymap := match d.field? "keymap" with
      | some (.dict es) => es
      | _ => base.keymap }

structure System where
  machine : Machine
  /-- Instructions per second. -/
  clock : Number
  /-- Steps since the last load or reset. -/
  cycleCount : Nat
  /-- The fraction of a step that the time run so far has left over. -/
  debt : Float
  program : List UInt8
  romName : String
  romLoaded : Bool
  /-- The keypad keys under the lower-case names of the host keys. -/
  keymap : List (Datum × Datum)
  observers : Observers
  deriving Inhabited

/-- The name under which a host key is looked up. -/
def System.hostName (name : Datum) : Datum := .text (Text.lower name.shown)

/-- Puts the machine together; what the parts say while that goes well is noted. -/
def MachineConfig.boot (config : MachineConfig) (observers : Observers) :
    Observers × Except Failure System := Id.run do
  let mut o := observers
  let memory ← match Memory.create config.memorySize config.programStart with
    | .ok m => pure m
    | .error e => return (o, .error e)
  o := o.addNotes (memory.createNotes ++ [⟨.info, .cpu, "CHIP-8 CPU initialized"⟩])
  let display ← match Display.create config.width config.height with
    | .ok d => pure d
    | .error e => return (o, .error e)
  o := o.addNotes display.createNotes
  let timers ← match Timers.create config.timerRate with
    | .ok t => pure t
    | .error e => return (o, .error e)
  o := o.addNotes (timers.createNotes ++ [⟨.info, .system, "CHIP-8 system initialized"⟩])
  return (o, .ok {
    machine := {
      registers := Registers.create config.stackDepth config.programStart
      memory, display, timers
      keypad := .fresh
      source := .ofSeed? config.unseeded config.seed
      cycles := 0, unknownCount := 0, wiring := {} }
    clock := config.clock
    cycleCount := 0
    debt := 0.0
    program := []
    romName := ""
    romLoaded := false
    keymap := Datum.ofEntries (config.keymap.map fun (k, v) => (System.hostName k, v))
    observers := o })

namespace System

def mapObservers (s : System) (change : Observers → Observers) : System :=
  { s with observers := change s.observers }

def addNotes (s : System) (notes : List Record) : System := s.mapObservers (·.addNotes notes)

/-! ### Programs -/

/-- Every part but the memory and the random source as it was at first. -/
def resetState (s : System) : System :=
  let m := s.machine.resetProcessor
  { s with
    machine := { m with
      display := m.display.reset, timers := m.timers.reset, keypad := .fresh }
    cycleCount := 0
    debt := 0.0
    observers := s.observers.addNotes s.machine.resetNotes }

def loadProgram (s : System) (program : List UInt8) : System × Except Failure Unit :=
  match s.machine.memory.loadRom program with
  | .error f => (s.mapObservers (·.report f true .null), .error (.fault f))
  | .ok memory =>
    let s := s.addNotes (s.machine.memory.loadRomNotes program)
    let s := { s with machine := { s.machine with memory }, program, romLoaded := true }
    (s.resetState.mapObservers (·.publish .programLoaded "system"
      (.record [("size", .int program.length), ("name", .text s.romName)])), .ok ())

def loadRom (s : System) (fs : Files) (path : String) : System × Except Failure Unit :=
  match fs.read path with
  | .error e => (s, .error (.file e))
  | .ok content =>
    let program := content.toList
    match { s with romName := Files.baseName path }.loadProgram program with
    | (s, .error e) => (s, .error e)
    | (s, .ok ()) =>
      (s.addNotes [⟨.info, .system, s!"Loaded ROM: {s.romName} ({program.length} bytes)"⟩], .ok ())

/-- The machine as right after loading its program. -/
def reset (s : System) : System × Except Failure Unit :=
  let s := s.addNotes Memory.resetNotes
  let memory := s.machine.memory.reset
  let reloaded : System × Except Failure Memory :=
    if s.program.isEmpty then (s, .ok memory)
    else
      match memory.loadRom s.program with
      | .ok loaded => (s.addNotes (memory.loadRomNotes s.program), .ok loaded)
      | .error f => (s, .error (.fault f))
  match reloaded with
  | (s, .error e) => ({ s with machine := { s.machine with memory } }, .error e)
  | (s, .ok memory) =>
    let s := { s with machine := { s.machine with memory } }.resetState
    (s.mapObservers fun o => (o.publish .systemReset "system" .null).addNotes
      [⟨.info, .system, "System reset"⟩], .ok ())

/-! ### Running -/

/-- One instruction.  A fault is reported and leaves the machine where it was. -/
def step (s : System) : System × Except Failure StepReport :=
  let before := s.machine
  let o := { s.observers with journal := before.journalStep s.observers.journal }
  match before.step with
  | (machine, .error (.fault f)) =>
    ({ s with
        machine
        observers := o.report f true
          (.record [("pc", .int machine.registers.pc), ("cycle", .int s.cycleCount)]) },
      .error (.fault f))
  | (machine, .error e) => ({ s with machine, observers := o }, .error e)
  | (machine, .ok r) =>
    ({ s with
        machine
        cycleCount := s.cycleCount + 1
        observers := o.noticeStep before machine s.cycleCount r },
      .ok r)

/-- Lets time pass for the timers. -/
def updateTimers (s : System) (elapsed : Number) : System × Except Failure Int :=
  match s.machine.timers.update elapsed with
  | (timers, .error e) => ({ s with machine := { s.machine with timers } }, .error e)
  | (timers, .ok ticks) =>
    let s := s.addNotes (s.machine.timers.tickNotes ticks)
    let (ended, timers) := timers.consumeToneEnd
    let s := { s with machine := { s.machine with timers } }
    (if ended then s.mapObservers (·.publish .toneEnd "timers" .null) else s, .ok ticks)

/-- A number of steps, up to the first that fails; the reports come behind those given. -/
def runSteps : Nat → System → Array StepReport → System × Except Failure (Array StepReport)
  | 0, s, done => (s, .ok done)
  | n + 1, s, done =>
    match s.step with
    | (s, .error e) => (s, .error e)
    | (s, .ok r) => runSteps n s (done.push r)

/-- The debt with the steps of some more time added. -/
def owe (s : System) (elapsed : Number) : Except Failure Float :=
  match (elapsed.mul? s.clock).bind Number.toFloat? with
  | some steps => .ok (s.debt + steps)
  | none => .error .beyondRange

/-- Runs for a time: the whole steps that it is worth, then the timers. -/
def runFor (s : System) (elapsed : Number) : System × Except Failure (Array StepReport) :=
  match s.owe elapsed with
  | .error e => (s, .error e)
  | .ok debt =>
    let s := { s with debt }
    match Number.truncate? debt with
    | none => (s, .error (if debt.isNaN then .badValue .notANumber else .beyondRange))
    | some cycles =>
      let s := { s with debt := debt - (Number.floatOfInt? cycles).getD 0.0 }
      match runSteps cycles.toNat s #[] with
      | (s, .error e) => (s, .error e)
      | (s, .ok reports) =>
        match s.updateTimers elapsed with
        | (s, .error e) => (s, .error e)
        | (s, .ok _) => (s, .ok reports)

/-- The time that one step takes. -/
def stepTime (s : System) : Except Failure Number :=
  match s.clock.toFloat? with
  | none => .error .beyondRange
  | some hz => if hz == 0.0 then .error .divisionByZero else .ok (.float (1.0 / hz))

def runCyclesFrom : Nat → System → Array StepReport → System × Except Failure (Array StepReport)
  | 0, s, done => (s, .ok done)
  | n + 1, s, done =>
    match s.step with
    | (s, .error e) => (s, .error e)
    | (s, .ok r) =>
      match s.stepTime with
      | .error e => (s, .error e)
      | .ok elapsed =>
        match s.updateTimers elapsed with
        | (s, .error e) => (s, .error e)
        | (s, .ok _) => runCyclesFrom n s (done.push r)

/-- A number of steps, each followed by the time that it takes. -/
def runCycles (s : System) (cycles : Int) : System × Except Failure (Array StepReport) :=
  runCyclesFrom cycles.toNat s #[]

/-! ### Keys -/

/-- The keypad key that a value names. -/
def keyOf : Datum → Except Failure Key
  | .number (.int i) => Keypad.key? i
  | .bool b => Keypad.key? (if b then 1 else 0)
  | .number (.float f) =>
    if 0.0 ≤ f && f < 16.0 then .error .wrongKind
    else .error (.badValue (.keyIndex (.float f)))
  | _ => .error .wrongKind

/-- The event that tells of a key. -/
def keyEvent (down : Bool) : EventType := if down then .keyPress else .keyRelease

/-- Brings a key down or up, and announces it. -/
def moveKey (s : System) (key : Datum) (down : Bool) : System × Except Failure Unit :=
  match keyOf key with
  | .error e => (s, .error e)
  | .ok k =>
    let s := s.addNotes (s.machine.keypad.setKeyNotes k down)
    ({ s with machine := { s.machine with keypad := s.machine.keypad.setKey k down } }.mapObservers
      (·.publish (keyEvent down) "keypad" (.record [("key", key)])), .ok ())

def pressKey (s : System) (key : Datum) : System × Except Failure Unit := s.moveKey key true

def releaseKey (s : System) (key : Datum) : System × Except Failure Unit := s.moveKey key false

/-- The keys that are not as they were, in rising order, with how they are now. -/
def changedKeys (before after : Keypad) : List (Key × Bool) :=
  (List.finRange 16).filterMap fun k =>
    if before.isDown k == after.isDown k then none else some (k, after.isDown k)

/-- Brings all keys into the given states and announces each change. -/
def setKeys (s : System) (states : List Bool) : System × Except Failure Unit :=
  match s.machine.keypad.setKeys states with
  | .error e => (s, .error e)
  | .ok keypad =>
    let before := s.machine.keypad
    let s := s.addNotes (before.setKeysNotes states)
    ({ s with
        machine := { s.machine with keypad }
        observers := (changedKeys before keypad).foldl (fun o (k, down) =>
          o.publish (keyEvent down) "keypad"
            (.record [("key", .int k.val)])) s.observers }, .ok ())

/-- The keypad key of a host key; unbound keys have none. -/
def boundKey (s : System) (name : Datum) : Option Datum :=
  match Datum.lookup (hostName name) s.keymap with
  | none | some .null => none
  | some key => some key

/-- Moves the keypad key of a host key; says whether there is one. -/
def moveHostKey (s : System) (name : Datum) (down : Bool) : System × Except Failure Bool :=
  match s.boundKey name with
  | none => (s, .ok false)
  | some key =>
    match s.moveKey key down with
    | (s, .ok ()) => (s, .ok true)
    | (s, .error e) => (s, .error e)

def pressHostKey (s : System) (name : Datum) : System × Except Failure Bool :=
  s.moveHostKey name true

def releaseHostKey (s : System) (name : Datum) : System × Except Failure Bool :=
  s.moveHostKey name false

/-! ### Output -/

def toneActive (s : System) : Bool := s.machine.timers.toneActive

def needsRedraw (s : System) : Bool := s.machine.display.dirty

end System
end ChipEight
