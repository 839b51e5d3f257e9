import ChipEight.Number.Basic
/-!
What can go wrong inside the machine.  A fault names its cause; the wording is in `Fault.message`
alone.
-/

namespace ChipEight

inductive Fault where
  /-- The program is longer than the memory from the program start on. -/
  | romTooLarge (size capacity : Int)
  /-- An access outside the memory, or a write into a protected part of it. -/
  | addressOutOfRange (address : Int) (reason : String)
  /-- A call with `depth` return addresses stacked already. -/
  | stackOverflow (depth : Int) (address : Option Int)
  | stackUnderflow (address : Option Int)
  /-- A word that is no instruction. -/
  | unknownInstruction (opcode address : Int)
  deriving DecidableEq, Repr, Inhabited

namespace Fault

def outsideMemory : String := "outside address space"

def insideGlyphs : String := "is in the protected glyph region"

/-- Where an instruction stands, if that is known. -/
def place : Option Int → String
  | some address => " at 0x" ++ hexText 3 address
  | none => ""

def message : Fault → String
  | romTooLarge size capacity => s!"ROM is {size} bytes, only {capacity} bytes available"
  | addressOutOfRange address reason => "Address 0x" ++ hexText 4 address ++ " " ++ reason
  | stackOverflow depth address => s!"Call stack overflow{place address} (depth {depth})"
  | stackUnderflow address => "Return with empty call stack" ++ place address
  | unknownInstruction opcode address =>
    "Unknown opcode: 0x" ++ hexText 4 opcode ++ " at 0x" ++ hexText 3 address

/-- A fatal fault stops the machine; an unknown instruction is reported and skipped. -/
def fatal : Fault → Bool
  | unknownInstruction .. => false
  | _ => true

/-- The name under which a fault is filed. -/
def name : Fault → String
  | romTooLarge .. => "RomTooLarge"
  | addressOutOfRange .. => "AddressOutOfRange"
  | stackOverflow .. => "StackOverflow"
  | stackUnderflow .. => "StackUnderflow"
  | unknownInstruction .. => "UnknownInstruction"

end Fault
end ChipEight
