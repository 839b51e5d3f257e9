import ChipEight.Proofs.Conformity
/-! # When a step fails

`Machine.StepRefused` lists, with its fault, every condition under which a step fails: a word that
does not lie in memory, a full or an empty stack, and bytes behind the index register that may not
be read or written.  For a connected machine whose program counter and index register are not
negative the list is exact, first for operations (`perform_fails_iff`) and then for steps; no other
failure exists. -/

namespace ChipEight
namespace Machine

variable {m : Machine}

/-! ## The conditions -/

/-- Why `count` bytes cannot be written behind the index register: the first address is checked,
then the last, then the glyphs. -/
def WriteRefused (m : Machine) (count : Nat) (f : Fault) : Prop :=
  m.memory.size ≤ m.registers.index ∧ f = Memory.outside m.registers.index ∨
  m.registers.index < m.memory.size ∧ m.memory.size < m.registers.index + count ∧
    f = Memory.outside (m.registers.index + count - 1) ∨
  m.registers.index + count ≤ m.memory.size ∧ m.registers.index < 80 ∧
    f = Memory.glyphsProtected m.registers.index

/-- Why `count` bytes cannot be read behind the index register. -/
def ReadRefused (m : Machine) (count : Nat) (f : Fault) : Prop :=
  m.memory.size < m.registers.index + count ∧
    f = Memory.outside (max m.registers.index m.memory.size)

/-- Why an operation fails. -/
def Refused (m : Machine) : Operation → Fault → Prop
  | .ret, f => m.registers.stack = [] ∧ f = .stackUnderflow (some m.registers.pc)
  | .call _, f => m.registers.stackDepth ≤ m.registers.depth ∧
      f = .stackOverflow m.registers.depth (some m.registers.pc)
  | .draw _ _ rows, f => 0 < rows ∧ m.ReadRefused rows f
  | .fetch x, f => m.ReadRefused (x + 1) f
  | .digits _, f => m.WriteRefused 3 f
  | .store x, f => m.WriteRefused (x + 1) f
  | _, _ => False

/-- Why a step fails: its word lies outside the memory or its operation is refused. -/
def StepRefused (m : Machine) (f : Fault) : Prop :=
  m.memory.size ≤ m.registers.pc ∧ f = Memory.outside m.registers.pc ∨
  m.registers.pc + 1 = m.memory.size ∧ f = Memory.outside (m.registers.pc + 1) ∨
  ∃ w op, m.WordAt w ∧ Denotes w op ∧ m.Refused op f

/-! ## The operations -/

theorem ret_fails_iff {address : Int} {e : Failure} :
    (∃ s, m.perform address .ret = (s, .error e)) ↔ ∃ f, e = .fault f ∧ m.Refused .ret f := by
  simp only [perform, Registers.pop, Refused]
  cases m.registers.stack <;> simp [eq_comm]

theorem call_fails_iff {address : Int} {target : Nat} {e : Failure} :
    (∃ s, m.perform address (.call target) = (s, .error e)) ↔
      ∃ f, e = .fault f ∧ m.Refused (.call target) f := by
  simp only [perform, Registers.push, Refused]
  by_cases full : m.registers.stackDepth ≤ m.registers.depth
  · simp [full, eq_comm]
  · simp [full]

theorem draw_fails_iff (connected : m.Connected) (index : 0 ≤ m.registers.index) {x y : Reg}
    {rows : Nat} {e : Failure} :
    (∃ s, m.drawRows x y rows = (s, .error e)) ↔
      ∃ f, e = .fault f ∧ m.Refused (.draw x y rows) f := by
  rw [drawRows_eq connected, readRun_eq m.memory index]
  by_cases readable : rows = 0 ∨ m.registers.index + rows ≤ m.memory.size
  · have accepted : ∀ f, ¬ m.Refused (.draw x y rows) f := by
      rintro f ⟨some_, short, -⟩
      omega
    rw [if_pos readable]
    dsimp only
    rw [Display.drawSprite_eq connected.width_pos connected.height_pos]
    simp [accepted]
  · have refused : 0 < rows ∧ m.memory.size < m.registers.index + rows := by omega
    rw [if_neg readable]
    simp [Refused, ReadRefused, refused, eq_comm]

theorem fetch_fails_iff (connected : m.Connected) (index : 0 ≤ m.registers.index) {address : Int}
    {x : Reg} {e : Failure} :
    (∃ s, m.perform address (.fetch x) = (s, .error e)) ↔
      ∃ f, e = .fault f ∧ m.Refused (.fetch x) f := by
  simp only [perform, withPart, connected.parts, if_true, fetchRegs_eq m.memory _ x index]
  by_cases readable : m.registers.index + x.val < m.memory.size
  · have accepted : ∀ f, ¬ m.Refused (.fetch x) f := by
      rintro f ⟨short, -⟩
      omega
    simp [readable, accepted]
  · have refused : m.memory.size < m.registers.index + (x.val + 1 : Nat) := by omega
    rw [if_neg readable]
    simp only [Refused, ReadRefused, refused, true_and]
    simp [eq_comm]

theorem storeBlock_fails_iff (index : 0 ≤ m.registers.index) {data : List UInt8}
    (some_ : data ≠ []) {e : Failure} :
    (∃ s, m.storeBlock data = (s, .error e)) ↔
      ∃ f, e = .fault f ∧ m.WriteRefused data.length f := by
  simp only [WriteRefused, ← Memory.writeBlock_error_iff index some_, storeBlock]
  cases m.memory.writeBlock m.registers.index data <;> simp [eq_comm]

/-- **An operation fails on the listed conditions only**, and with the fault of its condition. -/
theorem perform_fails_iff (connected : m.Connected) (index : 0 ≤ m.registers.index)
    {op : Operation} {e : Failure} :
    (∃ s, m.perform m.registers.pc op = (s, .error e)) ↔ ∃ f, e = .fault f ∧ m.Refused op f := by
  have part := connected.parts
  cases op with
  | ret => exact ret_fails_iff
  | call target => exact call_fails_iff
  | draw x y rows => exact draw_fails_iff connected index
  | fetch x => exact fetch_fails_iff connected index
  | digits x =>
    simp only [perform, withPart, part, if_true]
    have some_ : decimalDigits (m.registers.get x) ≠ [] := by simp [decimalDigits]
    exact storeBlock_fails_iff index some_
  | store x =>
    have length : ((regsThrough x).map m.registers.get).length = x.val + 1 := by
      rw [List.length_map, length_regsThrough]
    have some_ : (regsThrough x).map m.registers.get ≠ [] := List.length_pos_iff.mp (by omega)
    have block := storeBlock_fails_iff (e := e) index some_
    rw [length] at block
    simp only [perform, withPart, part, if_true]
    exact block
  | waitKey x =>
    simp only [perform, withPart, part, if_true, Refused]
    split <;> simp
  | _ => simp [perform, withPart, part, Refused]

/-! ## The step -/

theorem fetchWord_fails_iff (connected : m.Connected) {e : Failure} :
    m.fetchWord = .error e ↔ ∃ f, e = .fault f ∧ m.memory.readWord m.registers.pc = .error f := by
  rw [fetchWord, if_pos (connected.parts .memory)]
  cases m.memory.readWord m.registers.pc <;> simp [eq_comm]

/-- **A step fails exactly on the listed conditions**, with the fault that is listed. -/
theorem step_fails_iff (connected : m.Connected) (pc : 0 ≤ m.registers.pc)
    (index : 0 ≤ m.registers.index) (e : Failure) :
    (∃ s, m.step = (s, .error e)) ↔ ∃ f, e = .fault f ∧ m.StepRefused f := by
  simp only [StepRefused, ← or_assoc, ← Memory.readWord_error_iff pc]
  cases fetched : m.fetchWord with
  | error e' =>
    have unread : ∀ w, ¬ m.WordAt w := fun w word => by
      rw [(fetchWord_ok_iff (connected.parts _)).mpr word] at fetched
      cases fetched
    have stepped : m.step = (m, .error e') := by
      simp only [step, connected.parts, not_true_eq_false, if_false, fetched]
    obtain ⟨f, rfl, cause⟩ := (fetchWord_fails_iff connected).mp fetched
    simp [stepped, cause, unread, eq_comm]
  | ok w =>
    have word := (fetchWord_ok_iff (connected.parts _)).mp fetched
    have read := Memory.readWord_ok_iff.mpr word
    have denoted : ∀ f, (∃ v op, m.WordAt v ∧ Denotes v op ∧ m.Refused op f) ↔
        m.Refused (Operation.ofWord w) f := by
      intro f
      constructor
      · rintro ⟨v, op, other, denoted, refused⟩
        obtain rfl := other.unique word
        obtain rfl := (denotes_iff word.lt).mp denoted
        exact refused
      · exact fun refused => ⟨w, _, word, (denotes_iff word.lt).mpr rfl, refused⟩
    simp only [step_of_word (connected.parts _) word, execute_error_iff,
      perform_fails_iff connected index, read, denoted, reduceCtorEq, false_or]

/-- A machine that is about to return without having been called. -/
def returning : Machine := running #[0x00, 0xEE]

theorem step_fails_underflow : returning.Connected ∧ 0 ≤ returning.registers.pc ∧
    0 ≤ returning.registers.index ∧
    ∃ s, returning.step = (s, .error (.fault (.stackUnderflow (some 80)))) := by
  have connected : returning.Connected :=
    ⟨fun part => by cases part <;> rfl, Nat.one_pos, Nat.one_pos⟩
  have pc : 0 ≤ returning.registers.pc := by decide
  have index : 0 ≤ returning.registers.index := by decide
  have refused : returning.StepRefused (.stackUnderflow (some 80)) :=
    .inr (.inr ⟨0x00EE, .ret, by decide, .inl (.ret rfl), rfl, rfl⟩)
  exact ⟨connected, pc, index, (step_fails_iff connected pc index _).mpr ⟨_, rfl, refused⟩⟩

end Machine
end ChipEight
