import ChipEight.Proofs.Conformity
import ChipEight.Proofs.PartialLoad
/-! # Registers to memory and back

FX55 writes V0 to VX over the bytes behind the index register, and FX65 reads them from there, so
each undoes the other where there is room: a load brings back what was stored, whatever has become
of the registers in between, and a store of what was loaded changes no byte of memory
(`Machine.transfers_invert`).  Where the bytes lie does not matter, and be it over the two
instructions themselves. -/

namespace ChipEight
namespace Machine

variable {l m s t u : Machine} {x z : Reg} {w : Nat}

/-! ## A store -/

/-- FX55. -/
def storeWord (x : Reg) : Nat := 0xF055 + 0x100 * x.val

theorem decode_storeWord (x : Reg) :
    Instruction.decode (storeWord x) = ⟨storeWord x, .store x⟩ := by
  revert x
  decide

/-- The machine with V0 to VX behind the index register. -/
def saved (m : Machine) (x : Reg) : Machine :=
  m.stored (x + 1) fun i => m.registers.get (Fin.ofNat 16 i)

theorem perform_store (part : m.wiring.memory = true) (writable : m.Writable (x + 1))
    (address : Int) : m.perform address (.store x) = (m.saved x, .ok .onward) := by
  have bytes : m.saved x = m.stored (x + 1) fun i => UInt8.ofNat (m.V (Fin.ofNat 16 i)) := by
    simp only [saved, ofNat_V]
  exact (store_ok_iff part).mpr ⟨writable, bytes, rfl⟩

/-- FX55 at an address. -/
theorem execute_storeWord (part : m.wiring.memory = true) (writable : m.Writable (x + 1))
    (address : Int) : m.execute (.decode (storeWord x)) address =
      ((m.saved x).goesOn (address + 2),
        .ok ⟨address, ⟨storeWord x, .store x⟩, (address + 2) % 65536, false⟩) := by
  rw [execute, decode_storeWord, perform_store part writable]
  rfl

/-- A store leaves the registers behind the index register, and the rest of memory as it was. -/
theorem behind_saved (writable : m.Writable (x + 1)) (hz : z ≤ x) :
    (m.saved x).behind z = m.registers.get z := by
  obtain ⟨low, high⟩ := writable
  rw [Fin.le_def] at hz
  rw [behind, saved, stored, Memory.byteAt_overwrite _ (by omega) high (by omega),
    Fin.ofNat_val_eq_self]

theorem getElem?_saved {i : Nat}
    (outside : ¬ (m.registers.index ≤ i ∧ i ≤ m.registers.index + x.val)) :
    (m.saved x).memory.ram[i]? = m.memory.ram[i]? := by
  rw [saved, stored, Memory.getElem?_overwrite, if_neg (by omega)]

/-! ## Carrying out a word -/

/-- The memory, the index register and the wiring of a machine, whatever has become of the rest. -/
structure Keeps (t u : Machine) : Prop where
  memory : u.memory = t.memory
  index : u.registers.index = t.registers.index
  wiring : u.wiring = t.wiring

theorem Keeps.trans (first : s.Keeps t) (second : t.Keeps u) : s.Keeps u :=
  ⟨second.memory.trans first.memory, second.index.trans first.index,
    second.wiring.trans first.wiring⟩

theorem keeps_goesOn (m : Machine) (next : Int) : m.Keeps (m.goesOn next) := ⟨rfl, rfl, rfl⟩

theorem filled_index (m : Machine) (x : Reg) : (m.filled x).index = m.registers.index := by
  rw [filled]

theorem keeps_filled (m : Machine) (x : Reg) : m.Keeps { m with registers := m.filled x } :=
  ⟨rfl, filled_index m x, rfl⟩

theorem Keeps.part (keeps : m.Keeps t) : t.wiring.memory = true ↔ m.wiring.memory = true := by
  rw [keeps.wiring]

theorem Keeps.writable {count : Nat} (keeps : m.Keeps t) : t.Writable count ↔ m.Writable count := by
  rw [Writable, Writable, keeps.memory, keeps.index]

theorem Keeps.readable {count : Nat} (keeps : m.Keeps t) : t.Readable count ↔ m.Readable count := by
  rw [Readable, Readable, keeps.memory, keeps.index]

theorem Keeps.behind (keeps : m.Keeps t) (z : Reg) : t.behind z = m.behind z := by
  rw [Machine.behind, Machine.behind, keeps.memory, keeps.index]

/-- The machine executes a word: as if it stood at some address, or in a step that finds it at the
program counter. -/
def CarriesOut (m : Machine) (w : Nat) (t : Machine) : Prop :=
  ∃ r, (∃ address, m.execute (.decode w) address = (t, .ok r)) ∨
    m.WordAt w ∧ m.step = (t, .ok r)

/-- Executing a word succeeds, and a step does that finds it. -/
def CanCarryOut (m : Machine) (w : Nat) : Prop :=
  (∀ address, ∃ t r, m.execute (.decode w) address = (t, .ok r)) ∧
    (m.WordAt w → ∃ t r, m.step = (t, .ok r))

theorem step_eq_execute (part : m.wiring.memory = true) (word : m.WordAt w) :
    m.step = m.execute (.decode w) m.registers.pc := by
  rw [step_of_word part word, decode_of_lt word.lt]

/-- A word that can be executed at every address is carried out as it is at one of them. -/
theorem carried {result : Int → Machine} {report : Int → StepReport}
    (part : m.wiring.memory = true) (executes : ∀ address,
      m.execute (.decode w) address = (result address, .ok (report address))) :
    m.CanCarryOut w ∧ ∀ t, m.CarriesOut w t → ∃ address, t = result address := by
  refine ⟨⟨fun address => ⟨_, _, executes address⟩, fun word => ?_⟩, ?_⟩
  · rw [step_eq_execute part word]
    exact ⟨_, _, executes _⟩
  · rintro t ⟨r, ⟨address, executed⟩ | ⟨word, stepped⟩⟩
    · rw [executes] at executed
      exact ⟨address, (Prod.mk.inj executed).1.symm⟩
    · rw [step_eq_execute part word, executes] at stepped
      exact ⟨_, (Prod.mk.inj stepped).1.symm⟩

theorem store_carried (part : m.wiring.memory = true) (writable : m.Writable (x + 1)) :
    m.CanCarryOut (storeWord x) ∧
      ∀ t, m.CarriesOut (storeWord x) t → (m.saved x).Keeps t := by
  refine (carried part (execute_storeWord part writable)).imp_right fun result t carried => ?_
  obtain ⟨address, rfl⟩ := result t carried
  exact keeps_goesOn _ _

theorem load_carried (part : m.wiring.memory = true) (readable : m.Readable (x + 1)) :
    m.CanCarryOut (loadWord x) ∧ ∀ t, m.CarriesOut (loadWord x) t →
      m.Keeps t ∧ ∀ z, t.registers.get z = if z ≤ x then m.behind z else m.registers.get z := by
  have executes (address : Int) := (execute_loadWord part x address).trans (if_pos readable)
  refine (carried part executes).imp_right fun result t carried => ?_
  obtain ⟨address, rfl⟩ := result t carried
  refine ⟨(keeps_filled m x).trans (keeps_goesOn _ _), fun z => ?_⟩
  have whole : m.Reaches x z ↔ z ≤ x := ⟨And.left, reaches_of_readable readable⟩
  rw [get_goesOn, get_filled]
  exact if_congr whole rfl rfl

/-! ## There and back -/

/-- What `m` has stored is loaded again into `u`, which leaves `l`. -/
structure Restores (m : Machine) (x : Reg) (u l : Machine) : Prop where
  values : ∀ z ≤ x, l.registers.get z = m.registers.get z
  others : ∀ z, x < z → l.registers.get z = u.registers.get z
  index : l.registers.index = m.registers.index ∧ l.registers.index = u.registers.index
  outside : ∀ i : Nat, ¬ (m.registers.index ≤ i ∧ i ≤ m.registers.index + x.val) →
    l.memory.ram[i]? = m.memory.ram[i]?

theorem restores (writable : m.Writable (x + 1)) (stored : (m.saved x).Keeps u) (loaded : u.Keeps l)
    (values : ∀ z, l.registers.get z = if z ≤ x then u.behind z else u.registers.get z) :
    m.Restores x u l where
  values z hz := by rw [values, if_pos hz, stored.behind, behind_saved writable hz]
  others z hz := by rw [values, if_neg (not_le.mpr hz)]
  index := ⟨(stored.trans loaded).index, loaded.index⟩
  outside i out := by rw [(stored.trans loaded).memory, getElem?_saved out]

/-- A machine whose registers have been loaded stores what is in memory already. -/
theorem saved_memory_of_loaded (loaded : m.Keeps l)
    (values : ∀ z ≤ x, l.registers.get z = m.behind z) : (l.saved x).memory = m.memory := by
  have there : ∀ i < x.val + 1,
      l.registers.get (Fin.ofNat 16 i) = l.memory.byteAt (l.registers.index + i) := by
    intro i hi
    have reg : (Fin.ofNat 16 i : Reg).val = i := Nat.mod_eq_of_lt (by omega)
    rw [values _ (by rw [Fin.le_def, reg]; omega), ← loaded.behind, behind, reg]
  rw [saved, stored, Memory.overwrite_eq_self there, loaded.memory]

/-- **FX55 and FX65 undo each other**, wherever the bytes lie. -/
theorem transfers_invert (part : m.wiring.memory = true) (x : Reg)
    (low : 80 ≤ m.registers.index) (high : m.registers.index + x.val < m.memory.size) :
    (m.CanCarryOut (storeWord x) ∧ ∀ t, m.CarriesOut (storeWord x) t → ∀ u, t.Keeps u →
      u.CanCarryOut (loadWord x) ∧ ∀ l, u.CarriesOut (loadWord x) l → m.Restores x u l) ∧
    (m.CanCarryOut (loadWord x) ∧ ∀ l, m.CarriesOut (loadWord x) l →
      l.CanCarryOut (storeWord x) ∧
        ∀ t, l.CarriesOut (storeWord x) t → t.memory = m.memory) := by
  have writable : m.Writable (x + 1) := ⟨low, by omega⟩
  have readable : m.Readable (x + 1) := ⟨by omega, writable.2⟩
  obtain ⟨stores, storing⟩ := store_carried part writable
  obtain ⟨loads, loading⟩ := load_carried part readable
  refine ⟨⟨stores, fun t stored_ u changed => ?_⟩, loads, fun l loaded => ?_⟩
  · have kept : (m.saved x).Keeps u := (storing t stored_).trans changed
    have saved_ : (m.saved x).Readable (x + 1) := readable
    obtain ⟨loads, loading⟩ := load_carried (kept.part.mpr part) (kept.readable.mpr saved_)
    refine ⟨loads, fun l loaded => ?_⟩
    obtain ⟨keeps, values⟩ := loading l loaded
    exact restores writable kept keeps values
  · obtain ⟨keeps, values⟩ := loading l loaded
    obtain ⟨stores, storing⟩ := store_carried (keeps.part.mpr part)
      (keeps.writable.mpr writable)
    refine ⟨stores, fun t stored_ => (storing t stored_).memory.trans ?_⟩
    exact saved_memory_of_loaded keeps fun z hz => (values z).trans (if_pos hz)

/-- V0 and V1 are to be stored over the instruction that stores them, and to be loaded again. -/
def overItself : Machine :=
  let m := running #[0xF1, 0x55, 0xF1, 0x65]
  { m with registers := { (m.registers.set 0 7).set 1 9 with index := 80 } }

theorem transfers_invert_overItself : overItself.wiring.memory = true ∧
    80 ≤ overItself.registers.index ∧
    overItself.registers.index + (1 : Reg).val < overItself.memory.size ∧
    ∃ t r u l r', overItself.step = (t, .ok r) ∧ t.memory.byteAt 80 = 7 ∧
      u = { t with registers := t.registers.set 0 0 } ∧ u.step = (l, .ok r') ∧
      l.registers.get 0 = 7 := by
  obtain ⟨⟨⟨-, steps⟩, back⟩, -⟩ :=
    transfers_invert (m := overItself) (by decide) 1 (by decide) (by decide)
  obtain ⟨t, r, stepped⟩ := steps (by decide)
  have result : t = overItself.step.1 := (congrArg Prod.fst stepped).symm
  obtain ⟨⟨-, loads⟩, restored⟩ := back t ⟨r, .inr ⟨by decide, stepped⟩⟩
    { t with registers := t.registers.set 0 0 } ⟨rfl, rfl, rfl⟩
  have word : Machine.WordAt { t with registers := t.registers.set 0 0 } (loadWord 1) := by
    rw [result]
    decide
  obtain ⟨l, r', loaded⟩ := loads word
  refine ⟨by decide, by decide, by decide, t, r, _, l, r', stepped, by rw [result]; decide, rfl,
    loaded, ?_⟩
  exact (restored l ⟨r', .inr ⟨word, loaded⟩⟩).values 0 (by decide)

end Machine
end ChipEight
