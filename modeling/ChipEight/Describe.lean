import ChipEight.System
import ChipEight.Trace.Query
/-!
The parts of a system as data: what a host is shown of them, field by field.
-/

namespace ChipEight

def Instruction.describe (i : Instruction) : Datum := .record [
  ("opcode", .int i.opcode),
  ("op", .text i.operation.name),
  ("x", .int i.x), ("y", .int i.y), ("n", .int i.n), ("nn", .int i.nn), ("nnn", .int i.nnn),
  ("mnemonic", .text i.operation.mnemonic),
  ("text", .text i.disassemble)]

def textOrNull (s : Option String) : Datum := (s.map Datum.text).getD .null

def intOrNull (i : Option Int) : Datum := (i.map Datum.int).getD .null

def StepReport.describe (r : StepReport) : Datum := .record [
  ("address", .int r.address),
  ("opcode", .int r.instruction.opcode),
  ("op", .text r.instruction.operation.name),
  ("next_pc", .int r.nextPc),
  ("waiting", .bool r.waiting),
  ("advanced", .bool r.advanced),
  ("error", textOrNull (r.fault?.map Fault.message))]

/-- The fields that a fault's wording is made from. -/
def Fault.describe : Fault → Datum
  | romTooLarge size capacity => .record [("size", .int size), ("capacity", .int capacity)]
  | addressOutOfRange a reason => .record [("address", .int a), ("reason", .text reason)]
  | stackOverflow depth a => .record [("depth", .int depth), ("address", intOrNull a)]
  | stackUnderflow a => .record [("address", intOrNull a)]
  | unknownInstruction opcode a => .record [("opcode", .int opcode), ("address", .int a)]

namespace Registers

/-- The return addresses, the oldest first. -/
def stackDatum (r : Registers) : Datum := .list (r.stack.reverse.map Datum.int)

def fields (r : Registers) : List (String × Datum) := r.named.map fun (k, v) => (k, .int v)

/-- The sixteen registers in hexadecimal, two digits each. -/
def hexText (r : Registers) : String :=
  String.ofList (r.v.toList.flatMap fun b => Text.hexDigits 2 b.toNat)

end Registers

def Machine.describe (m : Machine) : Datum := .record (m.registers.fields ++ [
  ("cycles", .int m.cycles),
  ("stack", m.registers.stackDatum),
  ("unknown_instructions", .int m.unknownCount)])

def Keypad.latchDatum (k : Keypad) : Datum := intOrNull (k.latched.map fun k => k.val)

def Keypad.describe (k : Keypad) : Datum := .record [
  ("keys", .list (k.pressed.map fun k => .int k.val)),
  ("latched_key", k.latchDatum),
  ("state", .text k.state.name)]

def Timers.describe (t : Timers) : Datum := .record [
  ("DT", .int t.delay.toNat),
  ("ST", .int t.sound.toNat),
  ("tone_active", .bool t.toneActive),
  ("ticks", .int t.ticks)]

def Display.describe (d : Display) : Datum := .record [
  ("dirty", .bool d.dirty),
  ("lit_pixels", .int d.grid.lit),
  ("draw_count", .int d.draws),
  ("clear_count", .int d.clears)]

/-- The frame: its size, and its rows with `#` for each lit pixel. -/
def Grid.describe (g : Grid) : Datum := .record [
  ("shape", .list [.int g.height, .int g.width]),
  ("rows", .list (g.rows.map fun r =>
    .text (String.ofList (r.map fun lit => if lit then '#' else '.'))))]

def Event.describe (e : Event) : Datum :=
  .list [.text e.type.name, .text e.source, e.payload, .bool e.handled]

def BusStats.describe (s : BusStats) : Datum := .record [
  ("events_triggered", .int s.triggered),
  ("events_handled", .int s.handled),
  ("handlers_called", .int s.calls)]

def System.describe (s : System) : Datum := .record [
  ("cycle_count", .int s.cycleCount),
  ("rom_name", .text s.romName),
  ("rom_size", .int s.program.length),
  ("cpu_state", s.machine.describe),
  ("timer_state", s.machine.timers.describe),
  ("keypad_state", s.machine.keypad.describe),
  ("display_state", s.machine.display.describe),
  ("tone_active", .bool s.toneActive),
  ("frame_buffer", s.machine.display.grid.describe)]

/-- One executed instruction in a line: where, what, where to, and the registers after it. -/
def StepReport.line (r : StepReport) (after : Machine) : String :=
  hexText 3 r.address ++ " " ++ r.instruction.disassemble ++ " -> " ++ hexText 3 r.nextPc ++
    (if r.waiting then " wait " else " ") ++ after.registers.hexText ++ " " ++
    hexText 1 after.registers.index

/-- One executed instruction in numbers. -/
def StepReport.numbers (r : StepReport) : String :=
  s!"{r.address}:{r.instruction.opcode}:{r.nextPc}:" ++ (if r.waiting then "1\n" else "0\n")

end ChipEight
