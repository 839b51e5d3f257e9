import ChipEight.Request.Reply
/-!
Requests to the single parts of a machine.
-/

namespace ChipEight

open Running

inductive MemoryRequest where
  | read (address : Int)
  | readWord (address : Int)
  | write (address value : Int)
  | writeBlock (address : Int) (data : List UInt8)
  | loadRom (program : List UInt8)
  | glyphAddress (digit : Int)
  | dump (start length : Int)
  | reset
  deriving DecidableEq, Repr

def MemoryRequest.run (q : MemoryRequest) : Running Reply := do
  let m ← machine
  let put (memory : Memory) : Running Reply := do
    setMachine { m with memory }
    return .none
  match q with
  | read address => return .int (← ofFault (m.memory.read address)).toNat
  | readWord address => return .int (← ofFault (m.memory.readWord address))
  | write address value => put (← ofFault (m.memory.write address value))
  | writeBlock address data => put (← ofFault (m.memory.writeBlock address data))
  | loadRom program =>
    let loaded ← ofFault (m.memory.loadRom program)
    note (m.memory.loadRomNotes program)
    put loaded
  | glyphAddress digit => return .int (Memory.glyphAddress digit)
  | dump start length => return .bytes (← ofExcept (m.memory.dump start length))
  | reset =>
    note Memory.resetNotes
    put m.memory.reset

inductive RegistersRequest where
  | push (address : Int)
  | pop
  | reset
  | setPc (value : Int)
  | setIndex (value : Int)
  | setFlag (value : Int)
  | poke (position value : Int)
  deriving DecidableEq, Repr

def RegistersRequest.run (q : RegistersRequest) : Running Reply := do
  let m ← machine
  let r := m.registers
  let put (registers : Registers) (reply : Reply) : Running Reply := do
    setMachine { m with registers }
    return reply
  match q with
  | push address => put (← ofFault (r.push address)) .none
  | pop =>
    let (address, registers) ← ofFault r.pop
    put registers (.int address)
  | reset => put r.reset .none
  | setPc pc => put { r with pc } .none
  | setIndex index => put { r with index } .none
  | setFlag value => put (r.set Reg.flag (UInt8.ofNat (value % 256).toNat)) .none
  | poke position value => put (← ofExcept (r.poke position value)) .none

inductive TimersRequest where
  | setDelay (value : Int)
  | setSound (value : Int)
  | tick
  | update (elapsed : Number)
  | consumeToneEnd
  | reset
  deriving Repr

def TimersRequest.run (q : TimersRequest) : Running Reply := do
  let m ← machine
  let t := m.timers
  let put (timers : Timers) (reply : Reply) : Running Reply := do
    setMachine { m with timers }
    return reply
  match q with
  | setDelay value => put (t.setDelay value) .none
  | setSound value => put (t.setSound value) .none
  | tick =>
    note (t.tickNotes 1)
    put t.tick (.bool t.endsTone)
  | update elapsed =>
    let (timers, result) := t.update elapsed
    setMachine { m with timers }
    let ticks ← ofExcept result
    note (t.tickNotes ticks)
    return .int ticks
  | consumeToneEnd => put t.consumeToneEnd.2 (.bool t.consumeToneEnd.1)
  | reset => put t.reset .none

inductive KeypadRequest where
  | press (key : Datum)
  | release (key : Datum)
  | setKeys (states : List Bool)
  | isPressed (number : Int)
  | waitForKey
  | reset
  deriving Repr

def KeypadRequest.run (q : KeypadRequest) : Running Reply := do
  let m ← machine
  let k := m.keypad
  let put (keypad : Keypad) (reply : Reply) : Running Reply := do
    setMachine { m with keypad }
    return reply
  match q with
  | press key =>
    let key ← ofExcept (System.keyOf key)
    note (k.setKeyNotes key true)
    put (k.pressKey key) .none
  | release key =>
    let key ← ofExcept (System.keyOf key)
    note (k.setKeyNotes key false)
    put (k.releaseKey key) .none
  | setKeys states =>
    let keypad ← ofExcept (k.setKeys states)
    note (k.setKeysNotes states)
    put keypad .none
  | isPressed number => return .bool (k.isPressed number)
  | waitForKey =>
    note k.waitNotes
    put k.waitForKey.2 (.data (intOrNull (k.waitForKey.1.map fun k => k.val)))
  | reset => put .fresh .none

inductive DisplayRequest where
  | clear
  | drawSprite (x y : Int) (sprite : List Int)
  | getPixel (x y : Int)
  | markClean
  | toAscii (on off : String)
  | reset
  deriving DecidableEq, Repr

def DisplayRequest.run (q : DisplayRequest) : Running Reply := do
  let m ← machine
  let d := m.display
  let put (display : Display) (reply : Reply) : Running Reply := do
    setMachine { m with display }
    return reply
  match q with
  | clear => put d.clear .none
  | drawSprite x y sprite =>
    let (display, collision) ← ofExcept (d.drawSprite x y sprite)
    put display (.bool collision)
  | getPixel x y => return .bool (← ofExcept (d.getPixel x y))
  | markClean => put d.markClean .none
  | toAscii on off => return .text (d.toAscii on off)
  | reset => put d.reset .none

/-- Requests to a processor; one that stands alone reports words that are no instructions itself,
one in a system leaves that to the system's observers. -/
inductive ProcessorRequest where
  | step
  /-- Executes an instruction as if it stood at an address, by default the current one. -/
  | execute (i : Instruction) (address : Option Int)
  | fetch
  | reset
  deriving DecidableEq, Repr

/-- What follows an instruction that a processor was asked for directly. -/
def noticeDirect (alone : Bool) (r : StepReport) : Running Unit := do
  if alone then note (Machine.unknownNotes r.instruction r.address)
  else modifySystem fun s => s.mapObservers (·.noticeUnknown r s.cycleCount)

/-- One instruction, without the system's bookkeeping. -/
def directStep (alone : Bool) : Running StepReport := do
  let m ← machine
  let o ← observers
  setObservers { o with journal := m.journalStep o.journal }
  let (after, result) := m.step
  setMachine after
  let r ← ofExcept result
  noticeDirect alone r
  return r

def ProcessorRequest.run (alone : Bool) (q : ProcessorRequest) : Running Reply := do
  let m ← machine
  match q with
  | step => return .data (← directStep alone).describe
  | execute i address =>
    let address := address.getD m.registers.pc
    let o ← observers
    setObservers { o with journal := m.journalExecute i address o.journal }
    let (after, result) := m.execute i address
    setMachine after
    let r ← ofExcept result
    noticeDirect alone r
    return .data r.describe
  | fetch => return .int (← ofExcept m.fetchWord)
  | reset =>
    note m.resetNotes
    setMachine m.resetProcessor
    return .none

end ChipEight
