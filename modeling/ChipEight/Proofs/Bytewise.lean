import ChipEight.Proofs.BlockAccess
import ChipEight.Request.Parts
/-! # Blocks, byte by byte

An access to several bytes checks the two ends of its range and then copies the range as a whole.
It is granted if and only if the accesses to the single bytes are, and comes to the same: a block
leaves what its bytes leave when they are written one after the other
(`Memory.writeBlock_eq_ok_iff_writeEach`), and a dump and a word are made of what can be read under
their addresses.  `Memory.accesses_bytewise` says so of every memory, at every address. -/

namespace ChipEight
namespace Memory

variable {m m' : Memory} {address : Int} {byte : UInt8} {data : List UInt8} {f : Fault}

/-! ## Writing -/

/-- Bytes may be written under `count` addresses from `address` on. -/
def Admits (m : Memory) (address : Int) (count : Nat) : Prop :=
  count = 0 ∨ 80 ≤ address ∧ address + count ≤ m.size

theorem overwrite_zero (m : Memory) (address : Int) (bytes : Nat → UInt8) :
    m.overwrite address 0 bytes = m := overwrite_eq_self fun i none_ => absurd none_ i.not_lt_zero

/-- The first byte of a block and then the others. -/
theorem overwrite_cons (m : Memory) (address : Int) (byte : UInt8) (rest : List UInt8) :
    (m.overwrite address 1 fun _ => byte).overwrite (address + 1) rest.length (rest.getD · 0) =
      m.overwrite address (rest.length + 1) ((byte :: rest).getD · 0) := by
  simp only [overwrite, mk.injEq, true_and, and_true]
  refine Array.ext (by simp) fun i hi _ => ?_
  simp only [Array.getElem_ofFn, Fin.getElem_fin]
  by_cases before : (i : Int) < address
  · rw [if_neg (by omega), if_neg (by omega), if_neg (by omega)]
  by_cases first : (i : Int) = address
  · rw [if_neg (by omega), if_pos (by omega), if_pos (by omega), first, Int.sub_self]
    rfl
  by_cases inside : (i : Int) < address + 1 + rest.length
  · rw [if_pos (by omega), if_pos (by omega),
      show (i - address).toNat = (i - (address + 1)).toNat + 1 by omega, List.getD_cons_succ]
  · rw [if_neg (by omega), if_neg (by omega), if_neg (by omega)]

/-- The memory with one byte in place of another. -/
theorem write_eq (m : Memory) (address : Int) (byte : UInt8) : m.write address byte.toNat =
    if ¬ m.Holds address then .error (outside address)
    else if address < glyphsEnd then .error (glyphsProtected address)
    else .ok (m.overwrite address 1 fun _ => byte) := by
  have value : UInt8.ofNat (((byte.toNat : Int) % 256).toNat) = byte := by
    have := byte.toNat_lt
    rw [show ((byte.toNat : Int) % 256).toNat = byte.toNat by omega, UInt8.ofNat_toNat]
  rw [write]
  split
  · rfl
  split
  · rfl
  · rename_i low _
    simp only [Decidable.not_not, Holds] at low
    have ram : m.ram.setIfInBounds address.toNat byte = Array.ofFn fun i : Fin m.ram.size =>
        if address ≤ i.val ∧ i.val < address + (1 : Nat) then byte else m.ram[i] := by
      refine Array.ext (by simp) fun i hi _ => ?_
      rw [Array.size_setIfInBounds] at hi
      have here : address.toNat = i ↔ address ≤ i ∧ (i : Int) < address + (1 : Nat) := by omega
      rw [Array.getElem_setIfInBounds hi]
      simp only [Array.getElem_ofFn, Fin.getElem_fin, here]
    simp only [overwrite, value, ram]

theorem write_eq_ok_iff : m.write address byte.toNat = .ok m' ↔
    m.Admits address 1 ∧ m' = m.overwrite address 1 fun _ => byte := by
  have admits : m.Admits address 1 ↔ m.Holds address ∧ ¬ address < glyphsEnd := by
    simp only [Admits, Holds, glyphsEnd]
    omega
  rw [write_eq, admits]
  split
  · rename_i refused
    simp [refused]
  split
  · rename_i refused
    simp [refused]
  · rename_i holds above
    simp [Decidable.not_not.mp holds, above, eq_comm]

/-- Bytes written one after the other, up to the first that is refused. -/
def writeEach (m : Memory) (address : Int) : List UInt8 → Except Fault Memory
  | [] => .ok m
  | byte :: rest =>
    match m.write address byte.toNat with
    | .error f => .error f
    | .ok m' => m'.writeEach (address + 1) rest

theorem writeEach_eq_ok_iff : m.writeEach address data = .ok m' ↔
    m.Admits address data.length ∧ m' = m.overwrite address data.length (data.getD · 0) := by
  induction data generalizing m address with
  | nil =>
    rw [writeEach, List.length_nil, overwrite_zero, Except.ok.injEq, eq_comm (a := m)]
    exact (and_iff_right (.inl rfl)).symm
  | cons byte rest ih =>
    have split : m.Admits address (rest.length + 1) ↔
        m.Admits address 1 ∧ m.Admits (address + 1) rest.length := by
      simp only [Admits]
      omega
    rw [writeEach, List.length_cons, split]
    cases written : m.write address byte.toNat with
    | error f =>
      have refused : ¬ m.Admits address 1 := fun admits => by
        rw [write_eq_ok_iff.mpr ⟨admits, rfl⟩] at written
        cases written
      simp [refused]
    | ok first =>
      obtain ⟨admits, rfl⟩ := write_eq_ok_iff.mp written
      dsimp only
      rw [ih, overwrite_cons, and_iff_right admits]
      exact Iff.rfl

theorem writeBlock_eq_ok_iff : m.writeBlock address data = .ok m' ↔
    m.Admits address data.length ∧ m' = m.overwrite address data.length (data.getD · 0) := by
  cases data with
  | nil =>
    have empty : m.writeBlock address [] = .ok m := rfl
    rw [empty, List.length_nil, overwrite_zero, Except.ok.injEq, eq_comm (a := m)]
    exact (and_iff_right (.inl rfl)).symm
  | cons byte rest =>
    rw [writeBlock_ok_iff (by simp), Admits, or_iff_right (by simp), and_assoc]

/-- **A block is its bytes**, written one after the other. -/
theorem writeBlock_eq_ok_iff_writeEach :
    m.writeBlock address data = .ok m' ↔ m.writeEach address data = .ok m' :=
  writeBlock_eq_ok_iff.trans writeEach_eq_ok_iff.symm

/-- A range may be written to if each address in it may. -/
theorem admits_iff (m : Memory) (address : Int) (count : Nat) :
    m.Admits address count ↔ ∀ i < count, m.Admits (address + i) 1 := by
  simp only [Admits]
  constructor
  · rintro admits i inside
    omega
  · intro each
    by_cases none_ : count = 0
    · exact .inl none_
    · have first := each 0 (by omega)
      have last := each (count - 1) (by omega)
      omega

theorem writeBlock_granted_iff : (∃ m', m.writeBlock address data = .ok m') ↔
    ∀ i (inside : i < data.length), ∃ m', m.write (address + i) data[i].toNat = .ok m' := by
  simp only [writeBlock_eq_ok_iff, write_eq_ok_iff, exists_and_left, exists_eq, and_true]
  exact m.admits_iff address data.length

theorem writeBlock_error (refused : m.writeBlock address data = .error f) :
    ∃ place why, f = .addressOutOfRange place why := by
  rcases eq_or_ne data [] with rfl | some_
  · cases refused
  rw [writeBlock_eq _ _ some_] at refused
  split at refused
  · cases refused
    exact ⟨_, _, rfl⟩
  split at refused
  · cases refused
    exact ⟨_, _, rfl⟩
  split at refused <;> cases refused
  exact ⟨_, _, rfl⟩

/-- A host that asks for a block to be written has it written, or finds everything as it was. -/
theorem run_writeBlock (h : Host) (address : Int) (data : List UInt8) :
    (MemoryRequest.writeBlock address data).run.run h =
      match h.system.machine.memory.writeBlock address data with
      | .error f => (.error (.fault f), h)
      | .ok memory => (.ok .none, { h with system := { h.system with
          machine := { h.system.machine with memory } } }) := by
  have ran : (MemoryRequest.writeBlock address data).run.run h =
      (Running.ofFault (h.system.machine.memory.writeBlock address data) >>= fun memory => do
        Running.setMachine { h.system.machine with memory }
        return Reply.none : Running Reply).run h := rfl
  rw [ran]
  cases h.system.machine.memory.writeBlock address data <;> rfl

/-! ## Reading -/

theorem read_eq_ok_iff : m.read address = .ok byte ↔ m.Holds address ∧ byte = m.byteAt address := by
  rw [read]
  split
  · rename_i holds
    simp [holds, eq_comm]
  · rename_i refused
    simp [refused]

/-- **A run of bytes is what is read under its addresses.** -/
theorem readRun_ok_iff_read {count : Nat} : Machine.readRun m address count = .ok data ↔
    data.length = count ∧ ∀ i (inside : i < data.length), m.read (address + i) = .ok data[i] := by
  rw [Machine.readRun_ok_iff]
  simp only [read_eq_ok_iff]
  constructor
  · rintro ⟨readable, rfl⟩
    refine ⟨by simp, fun i inside => ⟨?_, by simp⟩⟩
    rw [List.length_map, List.length_range] at inside
    exact ⟨by omega, by omega⟩
  · rintro ⟨rfl, each⟩
    refine ⟨?_, List.ext_getElem (by simp) fun i inside _ => ?_⟩
    · by_cases none_ : data.length = 0
      · exact .inl none_
      · have first := (each 0 (by omega)).1.1
        have last := (each (data.length - 1) (by omega)).1.2
        exact .inr ⟨by omega, by omega⟩
    · rw [(each i inside).2]
      simp

theorem extract_eq_bytes {count : Nat} (low : 0 ≤ address) (high : address + count ≤ m.size) :
    (m.ram.extract address.toNat (address + count).toNat).toList =
      (List.range count).map fun i : Nat => m.byteAt (address + i) := by
  have fits := m.size_le_ram
  refine List.ext_getElem ?_ fun i inside inside' => ?_
  · simp
    omega
  · rw [List.length_map, List.length_range] at inside'
    have here : (address + i).toNat = address.toNat + i := by omega
    have bound : address.toNat + i < m.ram.size := by omega
    simp [byteAt, here, bound, Array.getD_eq_getD_getElem?]

/-- A dump is a run of bytes. -/
theorem dump_eq_ok_iff_readRun {length : Int} : m.dump address length = .ok data ↔
    0 ≤ length ∧ Machine.readRun m address length.toNat = .ok data := by
  rw [dump, Machine.readRun_ok_iff]
  split
  · rename_i negative
    simp [Int.not_le.mpr negative]
  split
  · rename_i none_
    subst none_
    simp [eq_comm]
  rename_i some_
  have readable : length.toNat = 0 ∨ 0 ≤ address ∧ address + length.toNat ≤ m.size ↔
      m.Holds address ∧ m.Holds (address + length - 1) := by
    simp only [Holds]
    omega
  rw [readable, and_iff_right (by omega)]
  split
  · rename_i refused
    simp [refused]
  split
  · rename_i refused
    simp [refused]
  · rename_i first last
    rw [Decidable.not_not] at first last
    have inside : address + length.toNat ≤ m.size := by
      have := last.2
      omega
    have bytes := extract_eq_bytes first.1 inside
    rw [and_iff_right ⟨first, last⟩, show address + length = address + length.toNat by omega, bytes,
      Except.ok.injEq, eq_comm]

theorem dump_granted_iff {length : Int} : (∃ bytes, m.dump address length = .ok bytes) ↔
    0 ≤ length ∧ ∀ i : Nat, i < length → ∃ byte, m.read (address + i) = .ok byte := by
  simp only [dump_eq_ok_iff_readRun, exists_and_left, readRun_ok_iff_read]
  refine and_congr_right fun positive => ?_
  constructor
  · rintro ⟨bytes, size, each⟩ i inside
    exact ⟨_, each i (by omega)⟩
  · intro each
    refine ⟨(List.range length.toNat).map fun i : Nat => m.byteAt (address + i), by simp, ?_⟩
    intro i inside
    obtain ⟨byte, read⟩ := each i (by simp at inside; omega)
    rw [read, (read_eq_ok_iff.mp read).2]
    simp

theorem dump_error {length : Int} (positive : 0 ≤ length) {e : Failure}
    (refused : m.dump address length = .error e) :
    ∃ place why, e = .fault (.addressOutOfRange place why) := by
  rw [dump, if_neg (Int.not_lt.mpr positive)] at refused
  split at refused
  · cases refused
  split at refused
  · cases refused
    exact ⟨_, _, rfl⟩
  split at refused <;> cases refused
  exact ⟨_, _, rfl⟩

/-- A word is its two bytes. -/
theorem readWord_eq_ok_iff {w : Nat} : m.readWord address = .ok w ↔
    ∃ high low, m.read address = .ok high ∧ m.read (address + 1) = .ok low ∧
      w = 256 * high.toNat + low.toNat := by
  rw [readWord_ok_iff]
  simp only [read_eq_ok_iff]
  constructor
  · rintro ⟨first, second, rfl⟩
    exact ⟨_, _, ⟨first, rfl⟩, ⟨second, rfl⟩, rfl⟩
  · rintro ⟨_, _, ⟨first, rfl⟩, ⟨second, rfl⟩, rfl⟩
    exact ⟨first, second, rfl⟩

/-! ## All accesses -/

/-- At an address, accesses to several bytes are accesses to each of them. -/
structure Bytewise (m : Memory) (address : Int) : Prop where
  /-- A block is written if each of its bytes can be. -/
  granted : ∀ data, (∃ m', m.writeBlock address data = .ok m') ↔
    ∀ i (inside : i < data.length), ∃ m', m.write (address + i) data[i].toNat = .ok m'
  /-- It leaves what its bytes leave. -/
  written : ∀ data m', m.writeBlock address data = .ok m' ↔ m.writeEach address data = .ok m'
  /-- A refusal is one of an address, and leaves everything as it was. -/
  refused : ∀ data f, m.writeBlock address data = .error f →
    (∃ place why, f = .addressOutOfRange place why) ∧
    ∀ h : Host, h.system.machine.memory = m →
      (MemoryRequest.writeBlock address data).run.run h = (.error (.fault f), h)
  empty : m.writeBlock address [] = .ok m
  /-- A dump is granted if each of its bytes can be read. -/
  dumpGranted : ∀ length, (∃ bytes, m.dump address length = .ok bytes) ↔
    0 ≤ length ∧ ∀ i : Nat, i < length → ∃ byte, m.read (address + i) = .ok byte
  /-- It holds what is read. -/
  dumped : ∀ length bytes, m.dump address length = .ok bytes →
    bytes.length = length ∧ ∀ i (inside : i < bytes.length), m.read (address + i) = .ok bytes[i]
  dumpNegative : ∀ length < 0, m.dump address length = .error (.badValue .dumpLength)
  dumpRefused : ∀ length e, 0 ≤ length → m.dump address length = .error e →
    ∃ place why, e = .fault (.addressOutOfRange place why)
  word : ∀ w, m.readWord address = .ok w ↔
    ∃ high low, m.read address = .ok high ∧ m.read (address + 1) = .ok low ∧
      w = 256 * high.toNat + low.toNat

/-- **Blocks, dumps and words are made of their bytes**, in every memory and at every address. -/
theorem accesses_bytewise (m : Memory) (address : Int) : m.Bytewise address where
  granted _ := writeBlock_granted_iff
  written _ _ := writeBlock_eq_ok_iff_writeEach
  refused data f refused := by
    refine ⟨writeBlock_error refused, fun h same => ?_⟩
    rw [run_writeBlock, same, refused]
  empty := rfl
  dumpGranted _ := dump_granted_iff
  dumped length bytes dumped := by
    obtain ⟨positive, ran⟩ := dump_eq_ok_iff_readRun.mp dumped
    obtain ⟨size, each⟩ := readRun_ok_iff_read.mp ran
    exact ⟨by omega, each⟩
  dumpNegative _ negative := if_pos negative
  dumpRefused _ _ positive := dump_error positive
  word _ := readWord_eq_ok_iff

end Memory
end ChipEight
