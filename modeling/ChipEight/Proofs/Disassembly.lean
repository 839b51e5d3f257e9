import ChipEight.Proofs.Stepping
/-! # The assembly text says what an instruction does

The text of an instruction can be read again (`Operation.ofText?`), and what is read is its
operation but for the register that a shift names and does not use
(`Instruction.ofText?_disassemble`).  So the text leaves out some bits of the word, and nothing that
makes a difference to any machine (`Machine.text_tells_effect`). -/

namespace ChipEight

/-! ## Digits -/

/-- The value of a hexadecimal digit in upper case. -/
def hexValue (c : Char) : Nat := if c.isDigit then c.toNat - 48 else c.toNat - 55

/-- The number that hexadecimal digits stand for, the highest digit first. -/
def hexNumber (cs : List Char) : Nat := cs.foldl (fun n c => 16 * n + hexValue c) 0

theorem hexValue_digitChar {d : Nat} (h : d < 16) : hexValue d.digitChar.toUpper = d := by
  revert d
  decide

theorem hexNumber_append_digit (cs : List Char) (c : Char) :
    hexNumber (cs ++ [c]) = 16 * hexNumber cs + hexValue c := by
  simp [hexNumber]

theorem hexNumber_toDigits (n : Nat) :
    hexNumber ((Nat.toDigits 16 n).map Char.toUpper) = n := by
  induction n using Nat.strongRecOn with
  | ind n ih =>
    by_cases small : n < 16
    · rw [Nat.toDigits_of_lt_base small]
      simp [hexNumber, hexValue_digitChar small]
    · have last := Nat.mod_lt n (by decide : 0 < 16)
      have split : Nat.toDigits 16 n = Nat.toDigits 16 (n / 16) ++ [(n % 16).digitChar] := by
        rw [← Nat.toDigits_of_lt_base last,
          Nat.toDigits_append_toDigits (by decide) (by omega) last, Nat.div_add_mod]
      rw [split, List.map_append, List.map_singleton, hexNumber_append_digit,
        ih (n / 16) (by omega), hexValue_digitChar last, Nat.div_add_mod]

theorem hexNumber_zeros (count : Nat) (cs : List Char) :
    hexNumber (List.replicate count '0' ++ cs) = hexNumber cs := by
  induction count with
  | zero => rfl
  | succ count ih =>
    rw [List.replicate_succ, List.cons_append]
    exact ih

theorem toList_hexText (width n : Nat) : (hexText width n).toList =
    List.replicate (width - (Nat.toDigits 16 n).length) '0' ++
      (Nat.toDigits 16 n).map Char.toUpper := by
  have whole : ¬ (n : Int) < 0 := by omega
  simp [hexText, whole]

theorem hexNumber_hexText (width n : Nat) : hexNumber (hexText width n).toList = n := by
  rw [toList_hexText, hexNumber_zeros, hexNumber_toDigits]

theorem alphanum_digitChar {d : Nat} (h : d < 16) : d.digitChar.toUpper.isAlphanum = true := by
  revert d
  decide

theorem alphanum_toDigits {c : Char} (n : Nat) (mem : c ∈ Nat.toDigits 16 n) :
    c.toUpper.isAlphanum = true := by
  induction n using Nat.strongRecOn with
  | ind n ih =>
    rw [Nat.toDigits_eq_if (by decide)] at mem
    split at mem
    · rename_i small
      obtain rfl := List.mem_singleton.mp mem
      exact alphanum_digitChar small
    · rcases List.mem_append.mp mem with before | last
      · exact ih (n / 16) (by omega) before
      · obtain rfl := List.mem_singleton.mp last
        exact alphanum_digitChar (Nat.mod_lt n (by decide))

theorem alphanum_hexText {c : Char} (width n : Nat) (mem : c ∈ (hexText width n).toList) :
    c.isAlphanum = true := by
  rw [toList_hexText] at mem
  rcases List.mem_append.mp mem with zero | digit
  · obtain rfl := List.eq_of_mem_replicate zero
    rfl
  · obtain ⟨d, held, rfl⟩ := List.mem_map.mp digit
    exact alphanum_toDigits n held

/-! ## Operands -/

/-- An operand of the assembly text. -/
inductive Operand where
  | register (x : Reg)
  /-- In hexadecimal, behind its mark. -/
  | number (n : Nat)
  /-- In decimal. -/
  | count (n : Nat)
  /-- A part of the machine, or a place that it points at. -/
  | name (s : String)

def Operand.ofText (s : String) : Operand :=
  if s.toList.all Char.isDigit then .count (Nat.ofDigitChars 10 s.toList 0)
  else
    match s.toList with
    | 'V' :: digits => .register (Fin.ofNat 16 (hexNumber digits))
    | '0' :: 'x' :: digits => .number (hexNumber digits)
    | _ => .name s

theorem Operand.ofText_register (x : Reg) : ofText x.name = .register x := by
  have text : x.name.toList = 'V' :: (hexText 1 (x.val : Nat)).toList := by
    rw [Reg.name, String.toList_append]
    rfl
  simp only [ofText, text, hexNumber_hexText]
  simp

theorem Operand.ofText_number (width n : Nat) :
    ofText ("0x" ++ hexText width n) = .number n := by
  have text : ("0x" ++ hexText width n).toList = '0' :: 'x' :: (hexText width n).toList := by
    rw [String.toList_append]
    rfl
  simp [ofText, text, hexNumber_hexText]

theorem Operand.ofText_count (n : Nat) : ofText n.repr = .count n := by
  have text : n.repr.toList = Nat.toDigits 10 n := by
    rw [Nat.repr_eq_ofList_toDigits, String.toList_ofList]
  have digits : (Nat.toDigits 10 n).all Char.isDigit = true :=
    List.all_eq_true.mpr fun c mem => Nat.isDigit_of_mem_toDigits (by decide) (by decide) mem
  rw [ofText, text, if_pos digits, Nat.ofDigitChars_toDigits (by decide) (by decide)]

/-! ## Lines -/

/-- A text without blanks and commas. -/
def SingleWord (s : String) : Prop := ' ' ∉ s.toList ∧ ',' ∉ s.toList

instance (s : String) : Decidable (SingleWord s) := inferInstanceAs (Decidable (_ ∧ _))

theorem single_of_alphanum {s : String} (plain : ∀ c ∈ s.toList, c.isAlphanum = true) :
    SingleWord s :=
  ⟨fun blank => absurd (plain _ blank) (by decide), fun comma => absurd (plain _ comma) (by decide)⟩

theorem SingleWord.append {s t : String} (hs : SingleWord s) (ht : SingleWord t) :
    SingleWord (s ++ t) := by
  simp only [SingleWord, String.toList_append, List.mem_append, not_or]
  exact ⟨⟨hs.1, ht.1⟩, hs.2, ht.2⟩

theorem single_hexText (width n : Nat) : SingleWord (hexText width n) :=
  single_of_alphanum fun _ mem => alphanum_hexText width n mem

theorem single_count (n : Nat) : SingleWord n.repr := by
  refine single_of_alphanum fun c mem => ?_
  rw [Nat.repr_eq_ofList_toDigits, String.toList_ofList] at mem
  have digit := Nat.isDigit_of_mem_toDigits (by decide) (by decide) mem
  rw [Char.isAlphanum, digit, Bool.or_true]

/-- The words of a line; commas stand between words and belong to none. -/
def wordsOf (line : String) : List String :=
  ((line.toList.filter (· != ',')).splitOn ' ').map String.ofList

theorem filter_comma {s : String} (single : SingleWord s) :
    s.toList.filter (· != ',') = s.toList :=
  List.filter_eq_self.mpr fun _ mem => bne_iff_ne.mpr fun comma => single.2 (comma ▸ mem)

/-- Without their commas, operands stand between blanks. -/
theorem filter_intercalate {words : List String} (single : ∀ s ∈ words, SingleWord s) :
    (", ".intercalate words).toList.filter (· != ',') =
      [' '].intercalate (words.map String.toList) := by
  have sep : ", ".toList = [',', ' '] := rfl
  rw [String.toList_intercalate, sep]
  induction words with
  | nil => rfl
  | cons s rest ih =>
    have first := filter_comma (single s List.mem_cons_self)
    have others := ih fun s mem => single s (List.mem_cons_of_mem _ mem)
    cases rest with
    | nil => simpa using first
    | cons t rest =>
      simp only [List.map_cons, List.intercalate_cons_cons] at others ⊢
      simp [List.filter_append, first, others]

namespace Operation

theorem single_mnemonic (op : Operation) : SingleWord op.mnemonic := by
  cases op <;> rw [mnemonic] <;> decide

theorem single_operands (op : Operation) : ∀ s ∈ op.operands, SingleWord s := by
  have register (x : Reg) : SingleWord x.name :=
    .append (s := "V") (by decide) (single_hexText 1 x.val)
  have number (width n : Nat) : SingleWord ("0x" ++ hexText width n) :=
    .append (by decide) (single_hexText width n)
  have byte (b : UInt8) : SingleWord (byteText b) := number 2 b.toNat
  have address (a : Nat) : SingleWord (addressText a) := number 3 a
  have names : ∀ s ∈ ["V0", "I", "DT", "ST", "K", "F", "B", "[I]"], SingleWord s := by decide
  cases op <;> simp_all [operands, single_count]

/-- The operation of a mnemonic with its operands; a register that the text leaves out is V0. -/
def ofParts? (mnemonic : String) : List Operand → Option Operation
  | [] => [("CLS", clear), ("RET", ret)].lookup mnemonic
  | [.number n] => [("JP", jump n), ("CALL", call n), ("DW", unknown n)].lookup mnemonic
  | [.register x] =>
    [("SHR", shiftRight x 0), ("SHL", shiftLeft x 0), ("SKP", skipPressed x),
      ("SKNP", skipReleased x)].lookup mnemonic
  | [.register x, .number n] =>
    let byte := UInt8.ofNat n
    [("SE", skipEq x byte), ("SNE", skipNe x byte), ("LD", load x byte), ("ADD", add x byte),
      ("RND", random x byte), ("JP", jumpOffset n)].lookup mnemonic
  | [.register x, .register y] =>
    [("SE", skipEqReg x y), ("SNE", skipNeReg x y), ("LD", move x y), ("OR", or x y),
      ("AND", and x y), ("XOR", xor x y), ("ADD", addReg x y), ("SUB", sub x y),
      ("SUBN", subFrom x y)].lookup mnemonic
  | [.name part, .number n] => [("LD I", loadIndex n)].lookup (mnemonic ++ " " ++ part)
  | [.name part, .register x] =>
    [("LD DT", setDelay x), ("LD ST", setSound x), ("ADD I", addIndex x), ("LD F", glyph x),
      ("LD B", digits x), ("LD [I]", store x)].lookup (mnemonic ++ " " ++ part)
  | [.register x, .name part] =>
    [("LD DT", readDelay x), ("LD K", waitKey x), ("LD [I]", fetch x)].lookup
      (mnemonic ++ " " ++ part)
  | [.register x, .register y, .count rows] => [("DRW", draw x y rows)].lookup mnemonic
  | _ => none

/-- The operation that a line of assembly text stands for. -/
def ofText? (line : String) : Option Operation :=
  match wordsOf line with
  | [] => none
  | mnemonic :: operands => ofParts? mnemonic (operands.map Operand.ofText)

/-- The operation as its text shows it, without the register that a shift does not use. -/
def shown : Operation → Operation
  | shiftRight x _ => shiftRight x 0
  | shiftLeft x _ => shiftLeft x 0
  | op => op

@[simp] theorem mnemonic_shown (op : Operation) : op.shown.mnemonic = op.mnemonic := by
  cases op <;> rfl

@[simp] theorem operands_shown (op : Operation) : op.shown.operands = op.operands := by
  cases op <;> rfl

theorem ofParts?_operands (op : Operation) :
    ofParts? op.mnemonic (op.operands.map Operand.ofText) = some op.shown := by
  have byte (b : UInt8) : Operand.ofText (byteText b) = .number b.toNat := Operand.ofText_number 2 _
  have address (a : Nat) : Operand.ofText (addressText a) = .number a := Operand.ofText_number 3 a
  have word (w : Nat) : Operand.ofText ("0x" ++ hexText 4 w) = .number w :=
    Operand.ofText_number 4 w
  have v0 : Operand.ofText "V0" = .register 0 := Operand.ofText_register 0
  have named : ∀ s ∈ ["I", "DT", "ST", "K", "F", "B", "[I]"], Operand.ofText s = .name s := by
    simp [Operand.ofText]
  simp only [List.forall_mem_cons] at named
  cases op <;>
    simp [ofParts?, operands, mnemonic, shown, List.lookup_cons, Operand.ofText_register,
      Operand.ofText_count, byte, address, word, named, v0]

end Operation

/-! ## Instructions -/

namespace Instruction

theorem wordsOf_disassemble (i : Instruction) :
    wordsOf i.disassemble = i.operation.mnemonic :: i.operation.operands := by
  have mnemonic := i.operation.single_mnemonic
  have operands := i.operation.single_operands
  have single : ∀ s ∈ i.operation.mnemonic :: i.operation.operands, SingleWord s :=
    List.forall_mem_cons.mpr ⟨mnemonic, operands⟩
  have words : i.disassemble.toList.filter (· != ',') =
      [' '].intercalate ((i.operation.mnemonic :: i.operation.operands).map String.toList) := by
    rw [disassemble]
    cases listed : i.operation.operands with
    | nil => simpa using filter_comma mnemonic
    | cons first rest =>
      rw [listed] at operands
      have separated := filter_intercalate operands
      simp only [String.toList_append, List.filter_append, filter_comma mnemonic, separated,
        List.map_cons, List.intercalate_cons_cons]
      rfl
  rw [wordsOf, words, List.splitOn_intercalate]
  · simp
  · intro cs mem
    obtain ⟨s, held, rfl⟩ := List.mem_map.mp mem
    exact (single s held).1
  · simp

/-- **The assembly text can be read again**, as far as it shows the operation. -/
theorem ofText?_disassemble (i : Instruction) :
    Operation.ofText? i.disassemble = some i.operation.shown := by
  rw [Operation.ofText?, wordsOf_disassemble]
  exact i.operation.ofParts?_operands

/-- Instructions have the same text if it shows the same operation. -/
theorem disassemble_eq_iff {i j : Instruction} :
    i.disassemble = j.disassemble ↔ i.operation.shown = j.operation.shown := by
  constructor
  · intro same
    have read := i.ofText?_disassemble
    rw [same, ofText?_disassemble] at read
    exact (Option.some.inj read).symm
  · intro same
    have mnemonic := congrArg Operation.mnemonic same
    have operands := congrArg Operation.operands same
    rw [Operation.mnemonic_shown, Operation.mnemonic_shown] at mnemonic
    rw [Operation.operands_shown, Operation.operands_shown] at operands
    rw [disassemble, disassemble, mnemonic, operands]

theorem decode_emod (word : Int) : decode (word % 65536) = decode word := by
  simp [decode]

/-- 8XY6 and 8XYE, by their last digit. -/
def shiftWord (last : Nat) (x y : Reg) : Nat := 0x8000 + 0x100 * x + 0x10 * y + last

theorem decode_shiftWord (x y : Reg) :
    (decode (shiftWord 0x6 x y)).operation = .shiftRight x y ∧
      (decode (shiftWord 0xE x y)).operation = .shiftLeft x y := by
  have hx := x.isLt
  have hy := y.isLt
  have right : Encodes (shiftWord 0x6 x y) (.shiftRight x y) :=
    .shiftRight (by rw [shiftWord]; omega)
  have left : Encodes (shiftWord 0xE x y) (.shiftLeft x y) :=
    .shiftLeft (by rw [shiftWord]; omega)
  rw [Machine.decode_of_lt (by rw [shiftWord]; omega), right.ofWord_eq,
    Machine.decode_of_lt (by rw [shiftWord]; omega), left.ofWord_eq]
  exact ⟨rfl, rfl⟩

/-- The fault that is noted where an operation is none. -/
def faultOf (address : Int) : Operation → Option Fault
  | .unknown w => some (.unknownInstruction w address)
  | _ => none

theorem faultOf_shown (address : Int) (op : Operation) :
    faultOf address op.shown = faultOf address op := by
  cases op <;> rfl

/-- A word that is no instruction is noted as it stands. -/
theorem fault?_of_decode {r : StepReport} {word : Int} (decoded : r.instruction = decode word) :
    r.fault? = faultOf r.address (decode word).operation := by
  have bound : (word % 65536).toNat < 65536 := by omega
  rw [StepReport.fault?, decoded]
  rcases Operation.ofWord_encodes bound with row | unknown
  · have known (w : Nat) : (decode word).operation ≠ .unknown w := row.ne_unknown
    cases operation : (decode word).operation with
    | unknown w => exact absurd operation (known w)
    | _ => rfl
  · have unlisted : (decode word).operation = .unknown (word % 65536).toNat := unknown
    rw [unlisted]
    rfl

end Instruction

namespace Machine

theorem perform_shown (m : Machine) (address : Int) (op : Operation) :
    m.perform address op.shown = m.perform address op := by
  cases op <;> rfl

/-- Executions that end in one machine, and go on at one address with one fault noted or fail in
one way. -/
inductive EndsAlike :
    Machine × Except Failure StepReport → Machine × Except Failure StepReport → Prop
  | returns {s : Machine} {r r' : StepReport} : r'.address = r.address → r'.nextPc = r.nextPc →
      r'.waiting = r.waiting → r'.fault? = r.fault? → EndsAlike (s, .ok r) (s, .ok r')
  | fails {s : Machine} {e : Failure} : EndsAlike (s, .error e) (s, .error e)

/-- **What has one text has one effect.**  Only the low 16 bits of a word count; words with the same
text do the same to every machine, or fail on it in the same way; and the text of a shift does not
show its second register. -/
theorem text_tells_effect :
    (∀ word : Int, Instruction.decode word = .decode (word % 65536)) ∧
    (∀ a b : Int, (Instruction.decode a).disassemble = (Instruction.decode b).disassemble →
      ∀ (m : Machine) (address : Int),
        EndsAlike (m.execute (.decode a) address) (m.execute (.decode b) address)) ∧
    ∀ x y y' : Reg, ∀ last ∈ [0x6, 0xE],
      (Instruction.decode (Instruction.shiftWord last x y)).disassemble =
        (Instruction.decode (Instruction.shiftWord last x y')).disassemble := by
  refine ⟨fun word => (Instruction.decode_emod word).symm, fun a b same m address => ?_, ?_⟩
  · have shown := Instruction.disassemble_eq_iff.mp same
    have performed : m.perform address (Instruction.decode b).operation =
        m.perform address (Instruction.decode a).operation := by
      rw [← perform_shown, ← shown, perform_shown]
    rw [execute, execute, performed]
    rcases m.perform address (Instruction.decode a).operation with ⟨s, e | next⟩
    · exact .fails
    · refine .returns rfl rfl rfl ?_
      rw [Instruction.fault?_of_decode rfl, Instruction.fault?_of_decode rfl,
        ← Instruction.faultOf_shown, ← shown, Instruction.faultOf_shown]
  · intro x y y' last mem
    obtain ⟨right, left⟩ := Instruction.decode_shiftWord x y
    obtain ⟨right', left'⟩ := Instruction.decode_shiftWord x y'
    rw [Instruction.disassemble_eq_iff]
    rcases List.mem_pair.mp mem with rfl | rfl
    · rw [right, right']
      rfl
    · rw [left, left']
      rfl

/-- `SHR V1`, in a word with another second register and below zero. -/
theorem text_tells_effect_shift :
    (Instruction.decode 0x8126).disassemble = (Instruction.decode (0x8136 - 0x10000)).disassemble ∧
    ∀ (m : Machine) (address : Int),
      EndsAlike (m.execute (.decode 0x8126) address)
        (m.execute (.decode (0x8136 - 0x10000)) address) := by
  have same : (Instruction.decode 0x8126).disassemble =
      (Instruction.decode (0x8136 - 0x10000)).disassemble :=
    Instruction.disassemble_eq_iff.mpr rfl
  exact ⟨same, text_tells_effect.2.1 _ _ same⟩

end Machine

end ChipEight
