import ChipEight.Failure
import ChipEight.Instruction
/-!
The register file: sixteen byte registers, the index register, the program counter and the stack
of return addresses.  The stack is bounded by its depth; addresses are pushed modulo 65536.
-/

namespace ChipEight

def defaultStackDepth : Nat := 16

structure Registers where
  stackDepth : Int
  programStart : Int
  v : Vector UInt8 16
  index : Int
  pc : Int
  /-- Return addresses, the latest first. -/
  stack : List Int
  deriving DecidableEq, Repr

namespace Registers

def create (stackDepth programStart : Int) : Registers :=
  ⟨stackDepth, programStart, Vector.replicate 16 0, 0, programStart, []⟩

instance : Inhabited Registers := ⟨create defaultStackDepth 0⟩

def get (r : Registers) (x : Reg) : UInt8 := r.v[x]

def set (r : Registers) (x : Reg) (value : UInt8) : Registers := { r with v := r.v.set x value }

def flag (r : Registers) : UInt8 := r.get Reg.flag

def setFlag (r : Registers) (on : Bool) : Registers := r.set Reg.flag (if on then 1 else 0)

def depth (r : Registers) : Nat := r.stack.length

def push (r : Registers) (address : Int) : Except Fault Registers :=
  if r.stackDepth ≤ r.depth then .error (.stackOverflow r.depth (some r.pc))
  else .ok { r with stack := address % 65536 :: r.stack }

def pop (r : Registers) : Except Fault (Int × Registers) :=
  match r.stack with
  | [] => .error (.stackUnderflow (some r.pc))
  | top :: rest => .ok (top, { r with stack := rest })

def reset (r : Registers) : Registers := create r.stackDepth r.programStart

/-- Sets the register at a position, which may count from the end, to a byte. -/
def poke (r : Registers) (position value : Int) : Except Failure Registers :=
  if value < 0 ∨ 255 < value then .error (.badValue .byteRange)
  else if position < -16 ∨ 15 < position then .error .outOfBounds
  else .ok (r.set (Fin.ofNat 16 (position % 16).toNat) (UInt8.ofNat value.toNat))

/-- The values by name, in the order in which they are reported. -/
def named (r : Registers) : List (String × Int) :=
  (List.finRange 16).map (fun x => (Reg.name x, ((r.get x).toNat : Int))) ++
    [("I", r.index), ("PC", r.pc), ("SP", (r.depth : Int))]

end Registers
end ChipEight
