/-!
What the program tells its host while it runs: leveled records, each under the name of the part
that speaks, and the marks that scripted observers leave.  A journal keeps the records from its
threshold up.
-/

namespace ChipEight

inductive Level where
  | debug | info | warning | error | critical
  deriving DecidableEq, Repr, Inhabited

namespace Level

def all : List Level := [debug, info, warning, error, critical]

def name : Level → String
  | debug => "DEBUG"
  | info => "INFO"
  | warning => "WARNING"
  | error => "ERROR"
  | critical => "CRITICAL"

def rank : Level → Nat
  | debug => 10
  | info => 20
  | warning => 30
  | error => 40
  | critical => 50

def ofName? (s : String) : Option Level := all.find? (·.name == s)

end Level

/-- Who speaks. -/
inductive Speaker where
  | errorLog | cpu | memory | registers | timers | keypad | display | system | config | events
  | recorder | visualizer
  deriving DecidableEq, Repr

def Speaker.name : Speaker → String
  | errorLog => "Chip8Emulator"
  | cpu => "Chip8Emulator.CPU"
  | memory => "Chip8Emulator.Memory"
  | registers => "Chip8Emulator.Registers"
  | timers => "Chip8Emulator.Timers"
  | keypad => "Chip8Emulator.Keypad"
  | display => "Chip8Emulator.Display"
  | system => "Chip8Emulator.System"
  | config => "Chip8Emulator.ConfigManager"
  | events => "Chip8Emulator.EventManager"
  | recorder => "Chip8Emulator.StateRecorder"
  | visualizer => "Chip8Emulator.Visualizer"

structure Record where
  level : Level
  speaker : Speaker
  message : String
  deriving DecidableEq, Repr

structure Journal where
  threshold : Level := .warning
  records : Array Record := #[]
  marks : Array String := #[]
  deriving Repr, Inhabited

namespace Journal

def add (j : Journal) (r : Record) : Journal :=
  if j.threshold.rank ≤ r.level.rank then { j with records := j.records.push r } else j

def addAll (j : Journal) (rs : List Record) : Journal := rs.foldl add j

/-- Adds a record whose text is only made when it is kept. -/
def note (j : Journal) (level : Level) (speaker : Speaker) (message : Unit → String) : Journal :=
  if j.threshold.rank ≤ level.rank then
    { j with records := j.records.push ⟨level, speaker, message ()⟩ }
  else j

def mark (j : Journal) (text : String) : Journal := { j with marks := j.marks.push text }

/-- The same journal with nothing written in it yet. -/
def blank (j : Journal) : Journal := { threshold := j.threshold }

end Journal
end ChipEight
