import ChipEight.Failure
import ChipEight.Journal
/-!
The machine's memory: bytes under addresses from 0 up to the size, with the glyphs of the sixteen
hexadecimal digits at the bottom, where nothing may be written.  An access outside the size is
refused; a refused write changes nothing.
-/

namespace ChipEight

/-- Five rows for each hexadecimal digit, the leftmost pixel in the highest bit. -/
def glyphRows : Array UInt8 := #[
  0xF0, 0x90, 0x90, 0x90, 0xF0, 0x20, 0x60, 0x20, 0x20, 0x70, 0xF0, 0x10, 0xF0, 0x80, 0xF0,
  0xF0, 0x10, 0xF0, 0x10, 0xF0, 0x90, 0x90, 0xF0, 0x10, 0x10, 0xF0, 0x80, 0xF0, 0x10, 0xF0,
  0xF0, 0x80, 0xF0, 0x90, 0xF0, 0xF0, 0x10, 0x20, 0x40, 0x40, 0xF0, 0x90, 0xF0, 0x90, 0xF0,
  0xF0, 0x90, 0xF0, 0x10, 0xF0, 0xF0, 0x90, 0xF0, 0x90, 0x90, 0xE0, 0x90, 0xE0, 0x90, 0xE0,
  0xF0, 0x80, 0x80, 0x80, 0xF0, 0xE0, 0x90, 0x90, 0x90, 0xE0, 0xF0, 0x80, 0xF0, 0x80, 0xF0,
  0xF0, 0x80, 0xF0, 0x80, 0x80]

def glyphHeight : Nat := 5

/-- The glyphs lie below this address. -/
def glyphsEnd : Nat := 80

def defaultMemorySize : Nat := 4096

def defaultProgramStart : Nat := 0x200

/-- The place that a position stands for in a sequence of `length` elements: positions below zero
count from the end, and all are brought into the sequence. -/
def clampPosition (length : Nat) (position : Int) : Nat :=
  if position < 0 then (length + position).toNat else min position.toNat length

/-- Puts `data` where the elements from `first` up to `last` were, whatever their number. -/
def splice {α : Type} (xs : Array α) (first last : Int) (data : Array α) : Array α :=
  let a := clampPosition xs.size first
  let b := max a (clampPosition xs.size last)
  xs.extract 0 a ++ data ++ xs.extract b xs.size

theorem clampPosition_le (length : Nat) (position : Int) :
    clampPosition length position ≤ length := by
  simp only [clampPosition]
  split <;> omega

theorem clampPosition_of_le {length : Nat} {position : Int} (h₀ : 0 ≤ position)
    (h : position ≤ length) : clampPosition length position = position.toNat := by
  simp only [clampPosition]
  split <;> omega

theorem clampPosition_add_le (length : Nat) (position : Int) (count : Nat) :
    clampPosition length (position + count) ≤ clampPosition length position + count := by
  simp only [clampPosition]
  split <;> split <;> omega

theorem size_splice {α : Type} (xs : Array α) (first last : Int) (data : Array α) :
    (splice xs first last data).size = clampPosition xs.size first + data.size +
      (xs.size - max (clampPosition xs.size first) (clampPosition xs.size last)) := by
  have := clampPosition_le xs.size first
  simp only [splice, Array.size_append, Array.size_extract]
  omega

/-- Data over a place of its own length makes nothing shorter, wherever the place lies. -/
theorem size_le_splice {α : Type} (xs data : Array α) (first : Int) :
    xs.size ≤ (splice xs first (first + data.size) data).size := by
  have := clampPosition_add_le xs.size first data.size
  rw [size_splice]
  omega

structure Memory where
  /-- Addresses from 0 up to this are accepted. -/
  size : Nat
  programStart : Int
  /-- The bytes themselves; in a memory smaller than the glyphs there are more than `size`. -/
  ram : Array UInt8
  /-- The length of the program loaded last. -/
  romSize : Nat
  size_le_ram : size ≤ ram.size
  deriving DecidableEq, Repr

namespace Memory

instance : Inhabited Memory := ⟨⟨0, 0, #[], 0, Nat.zero_le _⟩⟩

/-- Zeros with the glyphs over the first bytes. -/
def blankRam (size : Nat) : Array UInt8 :=
  splice (Array.replicate size 0) 0 glyphsEnd glyphRows

theorem size_le_blankRam (size : Nat) : size ≤ (blankRam size).size := by
  have := size_le_splice (Array.replicate size 0) glyphRows 0
  simpa [blankRam, glyphsEnd, show glyphRows.size = 80 from rfl] using this

def create (size programStart : Int) : Except Failure Memory :=
  if size < 0 then .error (.badValue .negativeSize)
  else .ok ⟨size.toNat, programStart, blankRam size.toNat, 0, size_le_blankRam _⟩

def createNotes (m : Memory) : List Record :=
  [⟨.info, .memory, s!"CHIP-8 memory initialized ({m.size} bytes)"⟩]

def outside (address : Int) : Fault := .addressOutOfRange address Fault.outsideMemory

def glyphsProtected (address : Int) : Fault := .addressOutOfRange address Fault.insideGlyphs

def Holds (m : Memory) (address : Int) : Prop := 0 ≤ address ∧ address < m.size

instance (m : Memory) (address : Int) : Decidable (m.Holds address) :=
  inferInstanceAs (Decidable (_ ∧ _))

/-- The byte stored under an address, without a check. -/
def byteAt (m : Memory) (address : Int) : UInt8 := m.ram.getD address.toNat 0

def read (m : Memory) (address : Int) : Except Fault UInt8 :=
  if m.Holds address then .ok (m.byteAt address) else .error (outside address)

/-- Two bytes, the higher one first. -/
def readWord (m : Memory) (address : Int) : Except Fault Nat :=
  if ¬ m.Holds address then .error (outside address)
  else if ¬ m.Holds (address + 1) then .error (outside (address + 1))
  else .ok ((m.byteAt address).toNat * 256 + (m.byteAt (address + 1)).toNat)

/-- Writes the low eight bits of a value. -/
def write (m : Memory) (address value : Int) : Except Fault Memory :=
  if ¬ m.Holds address then .error (outside address)
  else if address < glyphsEnd then .error (glyphsProtected address)
  else .ok { m with
    ram := m.ram.setIfInBounds address.toNat (UInt8.ofNat (value % 256).toNat)
    size_le_ram := by simpa using m.size_le_ram }

/-- Writes bytes one after the other, or none of them.  The first address is checked, then the
last, then whether the range touches the glyphs. -/
def writeBlock (m : Memory) (address : Int) (data : List UInt8) : Except Fault Memory :=
  if data.isEmpty then .ok m
  else
    let last := address + data.length
    if ¬ m.Holds address then .error (outside address)
    else if ¬ m.Holds (last - 1) then .error (outside (last - 1))
    else if address < glyphsEnd then .error (glyphsProtected address)
    else .ok { m with
      ram := splice m.ram address last data.toArray
      size_le_ram := Nat.le_trans m.size_le_ram (by
        simpa [last] using size_le_splice m.ram data.toArray address) }

def capacity (m : Memory) : Int := m.size - m.programStart

/-- The bytes with zeros from the program start on. -/
def clearedRam (m : Memory) : Array UInt8 :=
  splice m.ram m.programStart m.ram.size (Array.replicate m.capacity.toNat 0)

theorem size_le_clearedRam (m : Memory) : m.size ≤ m.clearedRam.size := by
  have := m.size_le_ram
  simp only [clearedRam, size_splice, Array.size_replicate, capacity, clampPosition]
  split <;> omega

/-- Clears everything from the program start on and writes a program there. -/
def loadRom (m : Memory) (program : List UInt8) : Except Fault Memory :=
  if m.capacity < program.length then .error (.romTooLarge program.length m.capacity)
  else
    .ok { m with
      ram := splice m.clearedRam m.programStart (m.programStart + program.length) program.toArray
      romSize := program.length
      size_le_ram := Nat.le_trans m.size_le_clearedRam (by
        simpa using size_le_splice m.clearedRam program.toArray m.programStart) }

def loadRomNotes (m : Memory) (program : List UInt8) : List Record :=
  if m.capacity < program.length then []
  else
    (if program.isEmpty then [⟨.warning, .memory, "Loaded an empty program"⟩] else []) ++
      [⟨.info, .memory, s!"ROM loaded: {program.length} bytes at 0x" ++
        hexText 3 m.programStart⟩]

/-- The address of the glyph of a digit; only the low four bits of the digit count. -/
def glyphAddress (digit : Int) : Nat := glyphHeight * (digit % 16).toNat

/-- A copy of `length` bytes. -/
def dump (m : Memory) (start length : Int) : Except Failure (List UInt8) :=
  if length < 0 then .error (.badValue .dumpLength)
  else if length = 0 then .ok []
  else if ¬ m.Holds start then .error (.fault (outside start))
  else if ¬ m.Holds (start + length - 1) then .error (.fault (outside (start + length - 1)))
  else .ok (m.ram.extract start.toNat (start + length).toNat).toList

def reset (m : Memory) : Memory :=
  { m with ram := blankRam m.size, romSize := 0, size_le_ram := size_le_blankRam _ }

def resetNotes : List Record := [⟨.info, .memory, "Memory system reset"⟩]

end Memory
end ChipEight
