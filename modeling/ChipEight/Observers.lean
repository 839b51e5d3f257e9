import ChipEight.ErrorLog
import ChipEight.EventBus
import ChipEight.Machine
import ChipEight.Trace.Basic
/-!
Everything that watches a machine: the event bus, the error log and the trace if they are attached,
and the journal.  Nothing here changes the machine.
-/

namespace ChipEight

structure Observers where
  bus : Bus
  errors : Option ErrorLog
  trace : Option Trace
  journal : Journal
  deriving Inhabited

namespace Observers

def addNotes (o : Observers) (notes : List Record) : Observers :=
  { o with journal := o.journal.addAll notes }

def publish (o : Observers) (type : EventType) (source : String) (payload : Datum) : Observers :=
  let (bus, journal) := o.bus.publish o.journal type source payload
  { o with bus, journal }

/-- Reports a fault to the error log, or to the journal where there is none. -/
def report (o : Observers) (fault : Fault) (raised : Bool) (context : Datum) : Observers :=
  match o.errors with
  | some log =>
    let (log, journal, _) := log.report o.journal ⟨.fault fault, raised⟩ context
    { o with errors := some log, journal }
  | none =>
    let level : Level := if fault.fatal then .error else .warning
    { o with journal := o.journal.note level .system fun _ => fault.message }

def record (o : Observers) (snapshot : Unit → Datum) : Observers :=
  match o.trace with
  | some t => { o with trace := some (t.add (snapshot ())).1 }
  | none => o

/-! ### What a step tells -/

/-- A word that is no instruction is reported and announced. -/
def noticeUnknown (o : Observers) (r : StepReport) (cycle : Nat) : Observers :=
  match r.fault? with
  | none => o
  | some fault =>
    (o.report fault false (.record [("cycle", .int cycle)])).publish .unknownInstruction "cpu"
      (.record [("opcode", .int r.instruction.opcode), ("address", .int r.address)])

/-- Each instruction is announced, but only where someone listens. -/
def noticeInstruction (o : Observers) (r : StepReport) : Observers :=
  if o.bus.hasObservers .cpuInstruction then
    o.publish .cpuInstruction "cpu"
      (.record [("address", .int r.address), ("opcode", .int r.instruction.opcode)])
  else o

/-- Drawings, and the begin of a wait for a key. -/
def noticeEffect (o : Observers) (before after : Machine) (r : StepReport) : Observers :=
  match r.instruction.operation with
  | .clear => o.publish .displayClear "display" .null
  | .draw x y rows =>
    o.publish .displayDraw "display" (.record [
      ("x", .int (after.registers.get x).toNat),
      ("y", .int (after.registers.get y).toNat),
      ("rows", .int rows),
      ("collision", .bool (after.registers.flag != 0))])
  | _ =>
    if r.waiting && before.keypad.state != .awaiting then
      o.publish .keyWait "cpu" (.record [("register", .int r.instruction.x)])
    else o

def noticeTone (o : Observers) (before after : Machine) : Observers :=
  if after.timers.toneActive && !before.timers.toneActive then
    o.publish .toneStart "timers" (.record [("duration", .int after.timers.sound.toNat)])
  else o

/-- The snapshot of a step: what was executed, and the registers after it. -/
def snapshot (after : Machine) (cycle : Nat) (r : StepReport) : Datum :=
  .record [
    ("cycle", .int cycle),
    ("pc", .int r.address),
    ("opcode", .int r.instruction.opcode),
    ("mnemonic", .text r.instruction.disassemble),
    ("registers", .record ((after.registers.named.map fun (name, value) => (name, .int value)) ++
      [("DT", .int after.timers.delay.toNat), ("ST", .int after.timers.sound.toNat)]))]

/-- Everything that a successful step tells; `cycle` is the number of steps before it. -/
def noticeStep (o : Observers) (before after : Machine) (cycle : Nat) (r : StepReport) :
    Observers :=
  ((((o.noticeUnknown r cycle).noticeInstruction r).noticeEffect before after r).noticeTone before
    after).record fun _ => snapshot after (cycle + 1) r

end Observers
end ChipEight
