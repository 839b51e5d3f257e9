import ChipEight.Proofs.CleanFailure
/-! # Loads that are broken off

FX65 reads and assigns one register after the other, where FX55 and FX33 have their whole range
checked first.  So a load that starts inside of memory and runs past its end fails with the first
registers already overwritten (`Machine.perform_fetch`), and is one that either loads all or changes
nothing only if it overwrites them with what they held (`Machine.load_whole_iff`). -/

namespace ChipEight.Machine

variable {m : Machine} {x z : Reg}

/-- FX65. -/
def loadWord (x : Reg) : Nat := 0xF065 + 0x100 * x.val

theorem decode_loadWord (x : Reg) : Instruction.decode (loadWord x) = ⟨loadWord x, .fetch x⟩ := by
  revert x
  decide

instance (m : Machine) (count : Nat) : Decidable (m.Readable count) :=
  inferInstanceAs (Decidable (_ ∧ _))

/-- A load through VX gets as far as VZ. -/
def Reaches (m : Machine) (x z : Reg) : Prop :=
  z ≤ x ∧ 0 ≤ m.registers.index ∧ m.registers.index + z.val < m.memory.size

instance (m : Machine) (x z : Reg) : Decidable (m.Reaches x z) :=
  inferInstanceAs (Decidable (_ ∧ _))

/-- The byte behind the index register that is meant for VZ. -/
def behind (m : Machine) (z : Reg) : UInt8 := m.memory.byteAt (m.registers.index + z.val)

/-- The registers that a load through VX gets to are filled, and no others. -/
def filled (m : Machine) (x : Reg) : Registers :=
  { m.registers with
    v := Vector.ofFn fun z : Reg => if m.Reaches x z then m.behind z else m.registers.get z }

theorem get_filled (m : Machine) (x z : Reg) :
    (m.filled x).get z = if m.Reaches x z then m.behind z else m.registers.get z := by
  simp [filled, Registers.get]

/-- A load of so many registers, as far as it gets. -/
theorem loaded_eq_filled {count : Nat} (low : 0 ≤ m.registers.index)
    (reaches : ∀ z : Reg, z.val < count ↔ z ≤ x ∧ m.registers.index + z.val < m.memory.size) :
    m.registers.loaded m.memory count = m.filled x := by
  have same (z : Reg) : z.val < count ↔ m.Reaches x z := by simp [reaches, Reaches, low]
  simp only [Registers.loaded, filled, same, behind]

/-- The first address of a load that cannot be read. -/
def firstUnreadable (m : Machine) : Int :=
  if m.registers.index < 0 then m.registers.index else max m.registers.index m.memory.size

/-- **A load fills what it gets to**, whether it is broken off or not. -/
theorem perform_fetch (part : m.wiring.memory = true) (x : Reg) (address : Int) :
    m.perform address (.fetch x) = ({ m with registers := m.filled x },
      if m.Readable (x + 1) then .ok .onward
      else .error (.fault (Memory.outside m.firstUnreadable))) := by
  have wired : m.wiring.has .memory = true := part
  rw [perform, withPart, if_pos wired]
  by_cases low : m.registers.index < 0
  · have nothing (z : Reg) : ¬ m.Reaches x z := fun reached => by have := reached.2.1; omega
    have unreadable : ¬ m.Readable (x + 1) := fun readable => by have := readable.1; omega
    simp only [fetchRegs_of_neg m.memory m.registers x low, filled, nothing, if_false,
      ← Registers.v_eq_ofFn, unreadable, firstUnreadable, low, if_true]
  · have readable : m.Readable (x + 1) ↔ m.registers.index + x.val < m.memory.size := by
      rw [Readable]
      omega
    rw [fetchRegs_eq m.memory m.registers x (by omega)]
    simp only [readable, firstUnreadable, low, if_false]
    split
    all_goals rw [loaded_eq_filled (x := x) (by omega) fun z => by rw [Fin.le_def]; omega]

theorem get_goesOn (m : Machine) (address : Int) (z : Reg) :
    (m.goesOn address).registers.get z = m.registers.get z := rfl

/-- FX65 at an address. -/
theorem execute_loadWord (part : m.wiring.memory = true) (x : Reg) (address : Int) :
    m.execute (.decode (loadWord x)) address =
      if m.Readable (x + 1) then
        ({ m with registers := m.filled x }.goesOn (address + 2),
          .ok ⟨address, ⟨loadWord x, .fetch x⟩, (address + 2) % 65536, false⟩)
      else ({ m with registers := m.filled x },
        .error (.fault (Memory.outside m.firstUnreadable))) := by
  rw [execute, decode_loadWord, perform_fetch part]
  by_cases readable : m.Readable (x + 1)
  · rw [if_pos readable, if_pos readable]
    rfl
  · rw [if_neg readable, if_neg readable]

/-- All registers through VX have been loaded, or an address is out of range and all have the values
that they had. -/
def LoadsWhole (m : Machine) (x : Reg) : Machine × Except Failure StepReport → Prop
  | (t, .ok _) => ∀ z ≤ x, t.registers.get z = m.behind z
  | (t, .error e) =>
    (∃ address why, e = .fault (.addressOutOfRange address why)) ∧ t.registers.v = m.registers.v

theorem reaches_of_readable (readable : m.Readable (x + 1)) (hz : z ≤ x) : m.Reaches x z := by
  obtain ⟨low, high⟩ := readable
  rw [Fin.le_def] at hz
  exact ⟨hz, low, by omega⟩

theorem filled_v_eq_iff : (m.filled x).v = m.registers.v ↔
    ∀ z, m.Reaches x z → m.behind z = m.registers.get z := by
  have pointwise : (m.filled x).v = m.registers.v ↔
      ∀ z : Reg, (m.filled x).get z = m.registers.get z := by
    rw [Registers.v_eq_ofFn m.registers, Registers.v_eq_ofFn (m.filled x)]
    refine ⟨fun same z => ?_, fun same => by rw [funext same]⟩
    have := congrArg (·[z]) same
    simpa using this
  rw [pointwise]
  refine forall_congr' fun z => ?_
  rw [get_filled]
  by_cases reached : m.Reaches x z <;> simp [reached]

/-- **When a load is all or nothing.**  It fills the registers that it gets to, in range or not, and
what it overwrites before it is broken off must have been there already. -/
theorem load_whole_iff (part : m.wiring.memory = true) (x : Reg) (address : Int) :
    (∀ z, (m.execute (.decode (loadWord x)) address).1.registers.get z =
      if m.Reaches x z then m.behind z else m.registers.get z) ∧
    (m.Readable (x + 1) →
      ∃ report, (m.execute (.decode (loadWord x)) address).2 = .ok report) ∧
    (¬ m.Readable (x + 1) → m.execute (.decode (loadWord x)) address =
      ({ m with registers := m.filled x }, .error (.fault (Memory.outside m.firstUnreadable)))) ∧
    (m.LoadsWhole x (m.execute (.decode (loadWord x)) address) ↔
      m.Readable (x + 1) ∨ ∀ z, m.Reaches x z → m.behind z = m.registers.get z) := by
  have values := get_filled m x
  rw [execute_loadWord part]
  by_cases readable : m.Readable (x + 1)
  · rw [if_pos readable]
    simp only [LoadsWhole, get_goesOn]
    have whole (z : Reg) (hz : z ≤ x) : (m.filled x).get z = m.behind z :=
      (values z).trans (if_pos (reaches_of_readable readable hz))
    exact ⟨values, fun _ => ⟨_, rfl⟩, fun refused => absurd readable refused,
      iff_of_true whole (.inl readable)⟩
  · rw [if_neg readable]
    refine ⟨values, fun fits => absurd fits readable, fun _ => rfl, ?_⟩
    rw [LoadsWhole, filled_v_eq_iff, or_iff_right readable]
    exact and_iff_right ⟨_, _, rfl⟩

/-- V0 and V1 are to be loaded with one byte left, a seven. -/
def oneLeft : Machine :=
  let m := running #[0xF1, 0x65, 7]
  { m with registers := { m.registers with index := 82 } }

theorem load_whole_iff_oneLeft : oneLeft.wiring.memory = true ∧
    (oneLeft.execute (.decode (loadWord 1)) 80).1.registers.get 0 = 7 ∧
    (oneLeft.execute (.decode (loadWord 1)) 80).2 = .error (.fault (Memory.outside 83)) ∧
    ¬ oneLeft.LoadsWhole 1 (oneLeft.execute (.decode (loadWord 1)) 80) := by
  obtain ⟨values, -, broken, whole⟩ := load_whole_iff (m := oneLeft) rfl 1 80
  exact ⟨rfl, (values 0).trans (by decide), congrArg Prod.snd (broken (by decide)),
    fun loads => absurd (whole.mp loads) (by decide)⟩

/-- **A load is not all or nothing.** -/
theorem load_breaks_off : ¬ ∀ (m : Machine) (x : Reg) (address : Int), m.wiring.memory = true →
    m.LoadsWhole x (m.execute (.decode (loadWord x)) address) := by
  intro claim
  have kept : (oneLeft.execute (.decode (loadWord 1)) 80).1.registers.v = oneLeft.registers.v :=
    (claim oneLeft 1 80 rfl).2
  exact absurd kept (by decide)

end ChipEight.Machine
