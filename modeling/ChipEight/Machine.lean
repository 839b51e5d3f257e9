import ChipEight.Display
import ChipEight.Keypad
import ChipEight.Memory
import ChipEight.Random.ByteSource
import ChipEight.Registers
import ChipEight.Timers
/-!
The machine and its instruction cycle.  `perform` carries out one operation and says where to go
on; `execute` puts the program counter there and counts the cycle; `step` fetches and decodes
first.  A step that fails leaves the program counter and the counters as they were.
-/

namespace ChipEight

/-- Which parts are connected to the processor. -/
structure Wiring where
  memory : Bool := true
  display : Bool := true
  timers : Bool := true
  keypad : Bool := true
  deriving DecidableEq, Repr, Inhabited

def Wiring.has (w : Wiring) : Part → Bool
  | .memory => w.memory
  | .display => w.display
  | .timers => w.timers
  | .keypad => w.keypad

structure Machine where
  registers : Registers
  memory : Memory
  display : Display
  timers : Timers
  keypad : Keypad
  source : ByteSource
  /-- Instructions carried out since the last reset. -/
  cycles : Nat
  /-- How many of them were no instructions. -/
  unknownCount : Nat
  wiring : Wiring
  deriving Repr, Inhabited

/-- Where the machine goes on after an operation. -/
inductive Next where
  | onward
  /-- Past the following instruction. -/
  | skip
  | goto (address : Int)
  /-- At the same instruction again, because a key is awaited. -/
  | park
  deriving DecidableEq, Repr

def instructionSize : Int := 2

def Next.address (at_ : Int) : Next → Int
  | onward => at_ + instructionSize
  | skip => at_ + 2 * instructionSize
  | goto address => address
  | park => at_

/-- What a step did. -/
structure StepReport where
  address : Int
  instruction : Instruction
  nextPc : Int
  waiting : Bool
  deriving DecidableEq, Repr, Inhabited

namespace StepReport

def advanced (r : StepReport) : Bool := r.nextPc != r.address

/-- The fault of a word that is no instruction. -/
def fault? (r : StepReport) : Option Fault :=
  match r.instruction.operation with
  | .unknown _ => some (.unknownInstruction r.instruction.opcode r.address)
  | _ => none

end StepReport

namespace Machine

def setReg (m : Machine) (x : Reg) (value : UInt8) : Machine :=
  { m with registers := m.registers.set x value }

/-- Sets a register and then the flag, so that the flag wins where they are the same. -/
def setWithFlag (m : Machine) (x : Reg) (value : UInt8) (flag : Bool) : Machine :=
  { m with registers := (m.registers.set x value).setFlag flag }

def setIndex (m : Machine) (index : Int) : Machine :=
  { m with registers := { m.registers with index } }

def skipIf (condition : Bool) : Next := if condition then .skip else .onward

/-- V0 up to VX. -/
def regsThrough (x : Reg) : List Reg := (List.finRange 16).take (x.val + 1)

/-- The bytes under `count` addresses from `address` on, or the fault of the first that cannot be
read. -/
def readRun (memory : Memory) : Int → Nat → Except Fault (List UInt8)
  | _, 0 => .ok []
  | address, count + 1 =>
    match memory.read address with
    | .error f => .error f
    | .ok byte => (readRun memory (address + 1) count).map (byte :: ·)

/-- Loads registers one after the other from the addresses that start at the index register;
stops at the first that cannot be read. -/
def fetchRegs (memory : Memory) (r : Registers) : List Reg → Registers × Except Failure Next
  | [] => (r, .ok .onward)
  | x :: rest =>
    match memory.read (r.index + x.val) with
    | .error f => (r, .error (.fault f))
    | .ok byte => fetchRegs memory (r.set x byte) rest

def decimalDigits (b : UInt8) : List UInt8 := [b / 100, b % 100 / 10, b % 10]

def storeBlock (m : Machine) (data : List UInt8) : Machine × Except Failure Next :=
  match m.memory.writeBlock m.registers.index data with
  | .error f => (m, .error (.fault f))
  | .ok memory => ({ m with memory }, .ok .onward)

def drawRows (m : Machine) (x y : Reg) (rows : Nat) : Machine × Except Failure Next :=
  if rows ≠ 0 ∧ ¬ m.wiring.has .memory then (m, .error (.notConnected .memory))
  else
    match readRun m.memory m.registers.index rows with
    | .error f => (m, .error (.fault f))
    | .ok sprite =>
      if ¬ m.wiring.has .display then (m, .error (.notConnected .display))
      else
        match m.display.drawSprite (m.registers.get x).toNat (m.registers.get y).toNat
            (sprite.map fun b => (b.toNat : Int)) with
        | .error e => (m, .error e)
        | .ok (display, collision) =>
          ({ m with display, registers := m.registers.setFlag collision }, .ok .onward)

/-- Runs an operation that needs a part. -/
def withPart (m : Machine) (part : Part)
    (run : Unit → Machine × Except Failure Next) : Machine × Except Failure Next :=
  if m.wiring.has part then run () else (m, .error (.notConnected part))

/-- Carries out the operation that stands at an address. -/
def perform (m : Machine) (address : Int) : Operation → Machine × Except Failure Next
  | .clear => m.withPart .display fun _ => ({ m with display := m.display.clear }, .ok .onward)
  | .ret =>
    match m.registers.pop with
    | .error f => (m, .error (.fault f))
    | .ok (target, registers) => ({ m with registers }, .ok (.goto target))
  | .jump target => (m, .ok (.goto target))
  | .call target =>
    match m.registers.push (address + instructionSize) with
    | .error f => (m, .error (.fault f))
    | .ok registers => ({ m with registers }, .ok (.goto target))
  | .skipEq x byte => (m, .ok (skipIf (m.registers.get x == byte)))
  | .skipNe x byte => (m, .ok (skipIf (m.registers.get x != byte)))
  | .skipEqReg x y => (m, .ok (skipIf (m.registers.get x == m.registers.get y)))
  | .skipNeReg x y => (m, .ok (skipIf (m.registers.get x != m.registers.get y)))
  | .load x byte => (m.setReg x byte, .ok .onward)
  | .add x byte => (m.setReg x (m.registers.get x + byte), .ok .onward)
  | .move x y => (m.setReg x (m.registers.get y), .ok .onward)
  | .or x y => (m.setReg x (m.registers.get x ||| m.registers.get y), .ok .onward)
  | .and x y => (m.setReg x (m.registers.get x &&& m.registers.get y), .ok .onward)
  | .xor x y => (m.setReg x (m.registers.get x ^^^ m.registers.get y), .ok .onward)
  | .addReg x y =>
    let a := m.registers.get x
    let b := m.registers.get y
    (m.setWithFlag x (a + b) (255 < a.toNat + b.toNat), .ok .onward)
  | .sub x y =>
    let a := m.registers.get x
    let b := m.registers.get y
    (m.setWithFlag x (a - b) (b < a), .ok .onward)
  | .shiftRight x _ =>
    let a := m.registers.get x
    (m.setWithFlag x (a >>> 1) (a &&& 1 != 0), .ok .onward)
  | .subFrom x y =>
    let a := m.registers.get x
    let b := m.registers.get y
    (m.setWithFlag x (b - a) (a < b), .ok .onward)
  | .shiftLeft x _ =>
    let a := m.registers.get x
    (m.setWithFlag x (a <<< 1) (a &&& 128 != 0), .ok .onward)
  | .loadIndex target => (m.setIndex target, .ok .onward)
  | .jumpOffset target => (m, .ok (.goto (target + (m.registers.get 0).toNat)))
  | .random x mask =>
    let (byte, source) := m.source.draw
    ({ m with source, registers := m.registers.set x (byte &&& mask) }, .ok .onward)
  | .draw x y rows => m.drawRows x y rows
  | .skipPressed x => m.withPart .keypad fun _ =>
    (m, .ok (skipIf (m.keypad.isPressed (m.registers.get x).toNat)))
  | .skipReleased x => m.withPart .keypad fun _ =>
    (m, .ok (skipIf (!m.keypad.isPressed (m.registers.get x).toNat)))
  | .readDelay x => m.withPart .timers fun _ => (m.setReg x m.timers.delay, .ok .onward)
  | .waitKey x => m.withPart .keypad fun _ =>
    match m.keypad.waitForKey with
    | (none, keypad) => ({ m with keypad }, .ok .park)
    | (some key, keypad) =>
      ({ m with keypad, registers := m.registers.set x (UInt8.ofNat key.val) }, .ok .onward)
  | .setDelay x => m.withPart .timers fun _ =>
    ({ m with timers := { m.timers with delay := m.registers.get x } }, .ok .onward)
  | .setSound x => m.withPart .timers fun _ =>
    ({ m with timers := { m.timers with sound := m.registers.get x } }, .ok .onward)
  | .addIndex x =>
    (m.setIndex ((m.registers.index + (m.registers.get x).toNat) % 65536), .ok .onward)
  | .glyph x => m.withPart .memory fun _ =>
    (m.setIndex (Memory.glyphAddress (m.registers.get x).toNat), .ok .onward)
  | .digits x => m.withPart .memory fun _ => m.storeBlock (decimalDigits (m.registers.get x))
  | .store x => m.withPart .memory fun _ => m.storeBlock ((regsThrough x).map m.registers.get)
  | .fetch x => m.withPart .memory fun _ =>
    let (registers, result) := fetchRegs m.memory m.registers (regsThrough x)
    ({ m with registers }, result)
  | .unknown _ => ({ m with unknownCount := m.unknownCount + 1 }, .ok .onward)

/-- Executes an instruction as if it stood at the given address. -/
def execute (m : Machine) (i : Instruction) (address : Int) :
    Machine × Except Failure StepReport :=
  match m.perform address i.operation with
  | (m, .error e) => (m, .error e)
  | (m, .ok next) =>
    let pc := next.address address % 65536
    ({ m with registers := { m.registers with pc }, cycles := m.cycles + 1 },
      .ok ⟨address, i, pc, next == .park⟩)

/-- The word at the program counter. -/
def fetchWord (m : Machine) : Except Failure Nat :=
  if m.wiring.has .memory then
    match m.memory.readWord m.registers.pc with
    | .error f => .error (.fault f)
    | .ok word => .ok word
  else .error (.notConnected .memory)

def step (m : Machine) : Machine × Except Failure StepReport :=
  if ¬ m.wiring.has .memory then (m, .error .noMemory)
  else
    match m.fetchWord with
    | .error e => (m, .error e)
    | .ok word => m.execute (.decode word) m.registers.pc

def resetProcessor (m : Machine) : Machine :=
  { m with registers := m.registers.reset, cycles := 0, unknownCount := 0 }

def resetNotes (m : Machine) : List Record :=
  [⟨.info, .cpu, "CPU reset. PC set to 0x" ++ hexText 3 m.registers.programStart⟩]

/-- One line for each instruction that is executed. -/
def traceLine (i : Instruction) (address : Int) : String :=
  "0x" ++ hexText 3 address ++ ": " ++ hexText 4 i.opcode ++ "  " ++ i.disassemble

/-- What the parts report while an instruction is executed. -/
def executeNotes (m : Machine) (i : Instruction) : List Record :=
  match i.operation with
  | .waitKey _ => if m.wiring.keypad then m.keypad.waitNotes else []
  | _ => []

/-- What the processor reports of a word that is no instruction when nobody else listens. -/
def unknownNotes (i : Instruction) (address : Int) : List Record :=
  match i.operation with
  | .unknown _ => [⟨.warning, .cpu, (Fault.unknownInstruction i.opcode address).message⟩]
  | _ => []

/-- The journal after an instruction that starts in state `m`: its line, then what the parts
report. -/
def journalExecute (m : Machine) (i : Instruction) (address : Int) (j : Journal) : Journal :=
  (j.note .debug .cpu fun _ => traceLine i address).addAll (m.executeNotes i)

/-- The journal after a step that starts in state `m`. -/
def journalStep (m : Machine) (j : Journal) : Journal :=
  match m.fetchWord with
  | .error _ => j
  | .ok word => m.journalExecute (.decode word) m.registers.pc j

end Machine
end ChipEight
