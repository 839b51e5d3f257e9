import ChipEight.Proofs.BlockAccess
import ChipEight.Proofs.Drawing
import Mathlib.Logic.Function.Basic
/-! # The instruction table

The table of the instruction set, column by column and apart from the code that decodes and executes:
`Encodes` says which words stand for an operation, `Effect` what the operation does to the machine
and where it goes on.  Values are numbers here, so that every wrap-around is written out.  A word
that no row encodes is unknown.  `Prescribed` puts the columns together. -/

namespace ChipEight

/-- The first column: the digits of the words, with their operands. -/
inductive Encodes (w : Nat) : Operation → Prop
  | clear : w = 0x00E0 → Encodes w .clear
  | ret : w = 0x00EE → Encodes w .ret
  | jump {nnn : Nat} : nnn < 0x1000 → w = 0x1000 + nnn → Encodes w (.jump nnn)
  | call {nnn : Nat} : nnn < 0x1000 → w = 0x2000 + nnn → Encodes w (.call nnn)
  | skipEq {x : Reg} {nn : UInt8} : w = 0x3000 + 0x100 * x + nn.toNat → Encodes w (.skipEq x nn)
  | skipNe {x : Reg} {nn : UInt8} : w = 0x4000 + 0x100 * x + nn.toNat → Encodes w (.skipNe x nn)
  | skipEqReg {x y : Reg} : w = 0x5000 + 0x100 * x + 0x10 * y → Encodes w (.skipEqReg x y)
  | load {x : Reg} {nn : UInt8} : w = 0x6000 + 0x100 * x + nn.toNat → Encodes w (.load x nn)
  | add {x : Reg} {nn : UInt8} : w = 0x7000 + 0x100 * x + nn.toNat → Encodes w (.add x nn)
  | move {x y : Reg} : w = 0x8000 + 0x100 * x + 0x10 * y → Encodes w (.move x y)
  | or {x y : Reg} : w = 0x8001 + 0x100 * x + 0x10 * y → Encodes w (.or x y)
  | and {x y : Reg} : w = 0x8002 + 0x100 * x + 0x10 * y → Encodes w (.and x y)
  | xor {x y : Reg} : w = 0x8003 + 0x100 * x + 0x10 * y → Encodes w (.xor x y)
  | addReg {x y : Reg} : w = 0x8004 + 0x100 * x + 0x10 * y → Encodes w (.addReg x y)
  | sub {x y : Reg} : w = 0x8005 + 0x100 * x + 0x10 * y → Encodes w (.sub x y)
  | shiftRight {x y : Reg} : w = 0x8006 + 0x100 * x + 0x10 * y → Encodes w (.shiftRight x y)
  | subFrom {x y : Reg} : w = 0x8007 + 0x100 * x + 0x10 * y → Encodes w (.subFrom x y)
  | shiftLeft {x y : Reg} : w = 0x800E + 0x100 * x + 0x10 * y → Encodes w (.shiftLeft x y)
  | skipNeReg {x y : Reg} : w = 0x9000 + 0x100 * x + 0x10 * y → Encodes w (.skipNeReg x y)
  | loadIndex {nnn : Nat} : nnn < 0x1000 → w = 0xA000 + nnn → Encodes w (.loadIndex nnn)
  | jumpOffset {nnn : Nat} : nnn < 0x1000 → w = 0xB000 + nnn → Encodes w (.jumpOffset nnn)
  | random {x : Reg} {nn : UInt8} : w = 0xC000 + 0x100 * x + nn.toNat → Encodes w (.random x nn)
  | draw {x y : Reg} {n : Nat} : n < 0x10 → w = 0xD000 + 0x100 * x + 0x10 * y + n →
      Encodes w (.draw x y n)
  | skipPressed {x : Reg} : w = 0xE09E + 0x100 * x → Encodes w (.skipPressed x)
  | skipReleased {x : Reg} : w = 0xE0A1 + 0x100 * x → Encodes w (.skipReleased x)
  | readDelay {x : Reg} : w = 0xF007 + 0x100 * x → Encodes w (.readDelay x)
  | waitKey {x : Reg} : w = 0xF00A + 0x100 * x → Encodes w (.waitKey x)
  | setDelay {x : Reg} : w = 0xF015 + 0x100 * x → Encodes w (.setDelay x)
  | setSound {x : Reg} : w = 0xF018 + 0x100 * x → Encodes w (.setSound x)
  | addIndex {x : Reg} : w = 0xF01E + 0x100 * x → Encodes w (.addIndex x)
  | glyph {x : Reg} : w = 0xF029 + 0x100 * x → Encodes w (.glyph x)
  | digits {x : Reg} : w = 0xF033 + 0x100 * x → Encodes w (.digits x)
  | store {x : Reg} : w = 0xF055 + 0x100 * x → Encodes w (.store x)
  | fetch {x : Reg} : w = 0xF065 + 0x100 * x → Encodes w (.fetch x)

/-- What a word stands for: the operation of its row, and where it has none, nothing known. -/
def Denotes (w : Nat) (op : Operation) : Prop :=
  Encodes w op ∨ op = .unknown w ∧ ∀ listed, ¬ Encodes w listed

namespace Machine

/-! ## The words of the second column -/

/-- The value of a register. -/
def V (m : Machine) (x : Reg) : Nat := (m.registers.get x).toNat

/-- The machine with these values in V0 to VF. -/
def withV (m : Machine) (values : Reg → Nat) : Machine :=
  { m with registers := { m.registers with
      v := Vector.ofFn fun z : Reg => UInt8.ofNat (values z) } }

/-- A value goes into VX. -/
def put (m : Machine) (x : Reg) (value : Nat) : Machine := m.withV (Function.update m.V x value)

/-- A value goes into VX and then the flag into VF. -/
def putThenFlag (m : Machine) (x : Reg) (value : Nat) (flag : Prop) [Decidable flag] : Machine :=
  m.withV (Function.update (Function.update m.V x value) Reg.flag (if flag then 1 else 0))

/-- The address of the following instruction. -/
def onward (m : Machine) : Int := m.registers.pc + 2

/-- The address behind the following instruction if a condition holds, else of that instruction. -/
def skipping (m : Machine) (condition : Prop) [Decidable condition] : Int :=
  if condition then m.registers.pc + 4 else m.onward

/-- The rows of the sprite that the index register points at. -/
def sprite (m : Machine) (rows : Nat) : List Int :=
  (List.range rows).map fun r : Nat => ((m.memory.byteAt (m.registers.index + r)).toNat : Int)

/-- There are `count` bytes behind the index register. -/
def Readable (m : Machine) (count : Nat) : Prop :=
  0 ≤ m.registers.index ∧ m.registers.index + count ≤ m.memory.size

/-- There are `count` bytes behind the index register, and none of a glyph. -/
def Writable (m : Machine) (count : Nat) : Prop :=
  80 ≤ m.registers.index ∧ m.registers.index + count ≤ m.memory.size

/-- The machine with new bytes behind the index register. -/
def stored (m : Machine) (count : Nat) (byte : Nat → UInt8) : Machine :=
  { m with memory := m.memory.overwrite m.registers.index count byte }

/-- The machine with a sprite drawn at `(VX, VY)`. -/
def drawn (m : Machine) (x y : Reg) (rows : Nat) : Machine :=
  let d := m.display
  let hits := Display.hits d.grid.width d.grid.height (m.V x) (m.V y) (m.sprite rows)
  { m with display :=
      { d with
        grid := .tabulate d.grid.width d.grid.height fun px py =>
          d.grid.get px py != (hits px py % 2 == 1)
        dirty := true
        draws := d.draws + 1 } }

end Machine

/-- The second column: the machine after an operation, but for the program counter and the count
of cycles, and the address that it goes on at. -/
inductive Effect (m : Machine) : Operation → Machine → Int → Prop
  | clear : Effect m .clear
      { m with display := { m.display with
          grid := .tabulate m.display.grid.width m.display.grid.height fun _ _ => false
          dirty := true
          clears := m.display.clears + 1 } } m.onward
  | ret {target : Int} {rest : List Int} : m.registers.stack = target :: rest →
      Effect m .ret { m with registers := { m.registers with stack := rest } } target
  | jump {nnn : Nat} : Effect m (.jump nnn) m nnn
  | call {nnn : Nat} : m.registers.stack.length < m.registers.stackDepth →
      Effect m (.call nnn)
        { m with registers := { m.registers with
            stack := (m.registers.pc + 2) % 65536 :: m.registers.stack } } nnn
  | skipEq {x : Reg} {nn : UInt8} : Effect m (.skipEq x nn) m (m.skipping (m.V x = nn.toNat))
  | skipNe {x : Reg} {nn : UInt8} : Effect m (.skipNe x nn) m (m.skipping (m.V x ≠ nn.toNat))
  | skipEqReg {x y : Reg} : Effect m (.skipEqReg x y) m (m.skipping (m.V x = m.V y))
  | skipNeReg {x y : Reg} : Effect m (.skipNeReg x y) m (m.skipping (m.V x ≠ m.V y))
  | load {x : Reg} {nn : UInt8} : Effect m (.load x nn) (m.put x nn.toNat) m.onward
  | add {x : Reg} {nn : UInt8} :
      Effect m (.add x nn) (m.put x ((m.V x + nn.toNat) % 256)) m.onward
  | move {x y : Reg} : Effect m (.move x y) (m.put x (m.V y)) m.onward
  | or {x y : Reg} : Effect m (.or x y) (m.put x (m.V x ||| m.V y)) m.onward
  | and {x y : Reg} : Effect m (.and x y) (m.put x (m.V x &&& m.V y)) m.onward
  | xor {x y : Reg} : Effect m (.xor x y) (m.put x (m.V x ^^^ m.V y)) m.onward
  | addReg {x y : Reg} : Effect m (.addReg x y)
      (m.putThenFlag x ((m.V x + m.V y) % 256) (255 < m.V x + m.V y)) m.onward
  | sub {x y : Reg} : Effect m (.sub x y)
      (m.putThenFlag x ((256 + m.V x - m.V y) % 256) (m.V y < m.V x)) m.onward
  | shiftRight {x y : Reg} : Effect m (.shiftRight x y)
      (m.putThenFlag x (m.V x / 2) (m.V x % 2 = 1)) m.onward
  | subFrom {x y : Reg} : Effect m (.subFrom x y)
      (m.putThenFlag x ((256 + m.V y - m.V x) % 256) (m.V x < m.V y)) m.onward
  | shiftLeft {x y : Reg} : Effect m (.shiftLeft x y)
      (m.putThenFlag x (2 * m.V x % 256) (128 ≤ m.V x)) m.onward
  | loadIndex {nnn : Nat} : Effect m (.loadIndex nnn)
      { m with registers := { m.registers with index := nnn } } m.onward
  | jumpOffset {nnn : Nat} : Effect m (.jumpOffset nnn) m (nnn + m.V 0)
  | random {x : Reg} {nn byte : UInt8} {source : ByteSource} : m.source.draw = (byte, source) →
      Effect m (.random x nn) { m.put x (byte.toNat &&& nn.toNat) with source } m.onward
  | draw {x y : Reg} {n : Nat} : n = 0 ∨ m.Readable n →
      Effect m (.draw x y n)
        ((m.drawn x y n).put Reg.flag
          (if Display.Collides m.display.grid (m.V x) (m.V y) (m.sprite n) then 1 else 0)) m.onward
  | skipPressed {x : Reg} :
      Effect m (.skipPressed x) m (m.skipping (m.keypad.isDown (Fin.ofNat 16 (m.V x)) = true))
  | skipReleased {x : Reg} :
      Effect m (.skipReleased x) m (m.skipping (m.keypad.isDown (Fin.ofNat 16 (m.V x)) = false))
  | readDelay {x : Reg} : Effect m (.readDelay x) (m.put x m.timers.delay.toNat) m.onward
  | waitKey_none {x : Reg} : m.keypad.latched = none →
      Effect m (.waitKey x) { m with keypad := { m.keypad with state := .awaiting } } m.registers.pc
  | waitKey_some {x : Reg} {key : Key} : m.keypad.latched = some key →
      Effect m (.waitKey x)
        { m.put x key.val with keypad := { m.keypad with latched := none, state := .idle } }
        m.onward
  | setDelay {x : Reg} : Effect m (.setDelay x)
      { m with timers := { m.timers with delay := UInt8.ofNat (m.V x) } } m.onward
  | setSound {x : Reg} : Effect m (.setSound x)
      { m with timers := { m.timers with sound := UInt8.ofNat (m.V x) } } m.onward
  | addIndex {x : Reg} : Effect m (.addIndex x)
      { m with registers := { m.registers with
          index := (m.registers.index + m.V x) % 65536 } } m.onward
  | glyph {x : Reg} : Effect m (.glyph x)
      { m with registers := { m.registers with index := 5 * (m.V x % 16) } } m.onward
  | digits {x : Reg} {d e f : Nat} : d < 10 → e < 10 → f < 10 → m.V x = 100 * d + 10 * e + f →
      m.Writable 3 →
      Effect m (.digits x) (m.stored 3 fun i => UInt8.ofNat ([d, e, f].getD i 0)) m.onward
  | store {x : Reg} : m.Writable (x + 1) →
      Effect m (.store x) (m.stored (x + 1) fun i => UInt8.ofNat (m.V (Fin.ofNat 16 i))) m.onward
  | fetch {x : Reg} : m.Readable (x + 1) →
      Effect m (.fetch x) (m.withV fun z =>
        if z ≤ x then (m.memory.byteAt (m.registers.index + z.val)).toNat else m.V z) m.onward
  | unknown {w : Nat} : Effect m (.unknown w)
      { m with unknownCount := m.unknownCount + 1 } m.onward

namespace Machine

/-- The word that the program counter points at. -/
def WordAt (m : Machine) (w : Nat) : Prop :=
  m.memory.Holds m.registers.pc ∧ m.memory.Holds (m.registers.pc + 1) ∧
    w = 256 * (m.memory.byteAt m.registers.pc).toNat +
      (m.memory.byteAt (m.registers.pc + 1)).toNat

instance (m : Machine) (w : Nat) : Decidable (m.WordAt w) :=
  inferInstanceAs (Decidable (_ ∧ _ ∧ _))

/-- One cycle more, and the program counter at an address, modulo 65536. -/
def goesOn (m : Machine) (address : Int) : Machine :=
  { m with registers := { m.registers with pc := address % 65536 }, cycles := m.cycles + 1 }

/-- What the table makes of a machine and a word. -/
def Prescribed (m : Machine) (w : Nat) (s : Machine) : Prop :=
  ∃ op after next, Denotes w op ∧ Effect m op after next ∧ s = after.goesOn next

/-- All parts are connected, and the display has at least one pixel. -/
structure Connected (m : Machine) : Prop where
  parts : ∀ part, m.wiring.has part = true
  width_pos : 0 < m.display.grid.width
  height_pos : 0 < m.display.grid.height

end Machine
end ChipEight
