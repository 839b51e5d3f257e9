import ChipEight.Number.Basic
/-!
Instruction words: the operation each of the 65536 words stands for, with its operands, and the
assembly text of an operation.
-/

namespace ChipEight

/-- One of the registers V0 to VF. -/
abbrev Reg := Fin 16

/-- The register that the arithmetic operations leave their flag in. -/
def Reg.flag : Reg := 15

def Reg.name (x : Reg) : String := "V" ++ hexText 1 x.val

inductive Operation where
  | clear
  | ret
  | jump (target : Nat)
  | call (target : Nat)
  | skipEq (x : Reg) (byte : UInt8)
  | skipNe (x : Reg) (byte : UInt8)
  | skipEqReg (x y : Reg)
  | skipNeReg (x y : Reg)
  | load (x : Reg) (byte : UInt8)
  | add (x : Reg) (byte : UInt8)
  | move (x y : Reg)
  | or (x y : Reg)
  | and (x y : Reg)
  | xor (x y : Reg)
  | addReg (x y : Reg)
  | sub (x y : Reg)
  | shiftRight (x y : Reg)
  | subFrom (x y : Reg)
  | shiftLeft (x y : Reg)
  | loadIndex (target : Nat)
  | jumpOffset (target : Nat)
  | random (x : Reg) (mask : UInt8)
  | draw (x y : Reg) (rows : Nat)
  | skipPressed (x : Reg)
  | skipReleased (x : Reg)
  | readDelay (x : Reg)
  | waitKey (x : Reg)
  | setDelay (x : Reg)
  | setSound (x : Reg)
  | addIndex (x : Reg)
  | glyph (x : Reg)
  | digits (x : Reg)
  | store (x : Reg)
  | fetch (x : Reg)
  | unknown (word : Nat)
  deriving DecidableEq, Repr, Inhabited

structure Instruction where
  opcode : Nat
  operation : Operation
  deriving DecidableEq, Repr, Inhabited

namespace Instruction

/-- The operand fields of a word, whether its operation uses them or not. -/
def x (i : Instruction) : Reg := ⟨i.opcode / 256 % 16, Nat.mod_lt _ (by decide)⟩
def y (i : Instruction) : Reg := ⟨i.opcode / 16 % 16, Nat.mod_lt _ (by decide)⟩
def n (i : Instruction) : Nat := i.opcode % 16
def nn (i : Instruction) : Nat := i.opcode % 256
def nnn (i : Instruction) : Nat := i.opcode % 4096

end Instruction

namespace Operation

/-- The operation of a 16-bit word. -/
def ofWord (w : Nat) : Operation :=
  let x : Reg := ⟨w / 256 % 16, Nat.mod_lt _ (by decide)⟩
  let y : Reg := ⟨w / 16 % 16, Nat.mod_lt _ (by decide)⟩
  let byte := UInt8.ofNat (w % 256)
  match w / 4096 with
  | 0x0 => if w == 0x00E0 then clear else if w == 0x00EE then ret else unknown w
  | 0x1 => jump (w % 4096)
  | 0x2 => call (w % 4096)
  | 0x3 => skipEq x byte
  | 0x4 => skipNe x byte
  | 0x5 => if w % 16 == 0 then skipEqReg x y else unknown w
  | 0x6 => load x byte
  | 0x7 => add x byte
  | 0x8 =>
    match w % 16 with
    | 0x0 => move x y
    | 0x1 => or x y
    | 0x2 => and x y
    | 0x3 => xor x y
    | 0x4 => addReg x y
    | 0x5 => sub x y
    | 0x6 => shiftRight x y
    | 0x7 => subFrom x y
    | 0xE => shiftLeft x y
    | _ => unknown w
  | 0x9 => if w % 16 == 0 then skipNeReg x y else unknown w
  | 0xA => loadIndex (w % 4096)
  | 0xB => jumpOffset (w % 4096)
  | 0xC => random x byte
  | 0xD => draw x y (w % 16)
  | 0xE =>
    match w % 256 with
    | 0x9E => skipPressed x
    | 0xA1 => skipReleased x
    | _ => unknown w
  | _ =>
    match w % 256 with
    | 0x07 => readDelay x
    | 0x0A => waitKey x
    | 0x15 => setDelay x
    | 0x18 => setSound x
    | 0x1E => addIndex x
    | 0x29 => glyph x
    | 0x33 => digits x
    | 0x55 => store x
    | 0x65 => fetch x
    | _ => unknown w

/-- The short name of an operation. -/
def name : Operation → String
  | clear => "CLS"
  | ret => "RET"
  | jump _ => "JP"
  | call _ => "CALL"
  | skipEq .. => "SE_BYTE"
  | skipNe .. => "SNE_BYTE"
  | skipEqReg .. => "SE_REG"
  | skipNeReg .. => "SNE_REG"
  | load .. => "LD_BYTE"
  | add .. => "ADD_BYTE"
  | move .. => "LD_REG"
  | or .. => "OR"
  | and .. => "AND"
  | xor .. => "XOR"
  | addReg .. => "ADD_REG"
  | sub .. => "SUB"
  | shiftRight .. => "SHR"
  | subFrom .. => "SUBN"
  | shiftLeft .. => "SHL"
  | loadIndex _ => "LD_I"
  | jumpOffset _ => "JP_V0"
  | random .. => "RND"
  | draw .. => "DRW"
  | skipPressed _ => "SKP"
  | skipReleased _ => "SKNP"
  | readDelay _ => "LD_VX_DT"
  | waitKey _ => "LD_VX_K"
  | setDelay _ => "LD_DT_VX"
  | setSound _ => "LD_ST_VX"
  | addIndex _ => "ADD_I"
  | glyph _ => "LD_F"
  | digits _ => "LD_B"
  | store _ => "STORE"
  | fetch _ => "LOAD"
  | unknown _ => "UNKNOWN"

def byteText (b : UInt8) : String := "0x" ++ hexText 2 b.toNat

def addressText (a : Nat) : String := "0x" ++ hexText 3 a

/-- The word of the assembly text that says what is done. -/
def mnemonic : Operation → String
  | clear => "CLS"
  | ret => "RET"
  | jump _ | jumpOffset _ => "JP"
  | call _ => "CALL"
  | skipEq .. | skipEqReg .. => "SE"
  | skipNe .. | skipNeReg .. => "SNE"
  | load .. | move .. | loadIndex _ | readDelay _ | waitKey _ | setDelay _ | setSound _
  | glyph _ | digits _ | store _ | fetch _ => "LD"
  | add .. | addReg .. | addIndex _ => "ADD"
  | or .. => "OR"
  | and .. => "AND"
  | xor .. => "XOR"
  | sub .. => "SUB"
  | shiftRight .. => "SHR"
  | subFrom .. => "SUBN"
  | shiftLeft .. => "SHL"
  | random .. => "RND"
  | draw .. => "DRW"
  | skipPressed _ => "SKP"
  | skipReleased _ => "SKNP"
  | unknown _ => "DW"

/-- The operands of the assembly text, in their order. -/
def operands : Operation → List String
  | clear | ret => []
  | jump a | call a => [addressText a]
  | jumpOffset a => ["V0", addressText a]
  | loadIndex a => ["I", addressText a]
  | skipEq x b | skipNe x b | load x b | add x b | random x b => [x.name, byteText b]
  | skipEqReg x y | skipNeReg x y | move x y | or x y | and x y | xor x y | addReg x y
  | sub x y | subFrom x y => [x.name, y.name]
  | shiftRight x _ | shiftLeft x _ => [x.name]
  | draw x y rows => [x.name, y.name, toString rows]
  | skipPressed x | skipReleased x => [x.name]
  | readDelay x => [x.name, "DT"]
  | waitKey x => [x.name, "K"]
  | setDelay x => ["DT", x.name]
  | setSound x => ["ST", x.name]
  | addIndex x => ["I", x.name]
  | glyph x => ["F", x.name]
  | digits x => ["B", x.name]
  | store x => ["[I]", x.name]
  | fetch x => [x.name, "[I]"]
  | unknown w => ["0x" ++ hexText 4 w]

end Operation

namespace Instruction

/-- Decodes the low 16 bits of a word. -/
def decode (word : Int) : Instruction :=
  let w := (word % 65536).toNat
  ⟨w, Operation.ofWord w⟩

/-- The assembly text: the mnemonic, then the operands behind a space, separated by commas. -/
def disassemble (i : Instruction) : String :=
  match i.operation.operands with
  | [] => i.operation.mnemonic
  | os => i.operation.mnemonic ++ " " ++ ", ".intercalate os

end Instruction
end ChipEight
