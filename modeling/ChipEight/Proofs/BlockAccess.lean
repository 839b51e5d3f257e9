import ChipEight.Machine
import Mathlib.Data.List.FinRange
/-! # Accesses to several bytes at once

Reading a run of bytes, loading registers and writing a block, each in closed form: what comes out
where every address is accepted, and which address is reported where one is not.  A block is
written over bytes of its own number (`splice_eq_ofFn`), so nothing moves in memory. -/

namespace ChipEight

/-- Data over a place of its own length inside a sequence replaces exactly that place. -/
theorem splice_eq_ofFn {xs data : Array UInt8} {first : Int} (h₀ : 0 ≤ first)
    (h : first + data.size ≤ xs.size) :
    splice xs first (first + data.size) data = Array.ofFn fun i : Fin xs.size =>
      if first ≤ i.val ∧ i.val < first + data.size then data.getD (i.val - first).toNat 0
      else xs[i] := by
  have hlast : clampPosition xs.size (first + data.size) = first.toNat + data.size := by
    rw [clampPosition_of_le (by omega) h]; omega
  apply Array.ext
  · rw [size_splice, hlast, clampPosition_of_le h₀ (by omega), Array.size_ofFn]
    omega
  intro i hi hn
  rw [Array.size_ofFn] at hn
  simp only [splice, hlast, clampPosition_of_le h₀ (show first ≤ xs.size by omega),
    Nat.max_eq_right (Nat.le_add_right _ _), Array.getElem_append, Array.getElem_extract,
    Array.size_append, Array.size_extract, Array.getElem_ofFn, Fin.getElem_fin]
  by_cases before : i < first.toNat
  · rw [dif_pos (by omega), dif_pos (by omega), if_neg (by omega)]
    congr 1; omega
  by_cases inside : i < first.toNat + data.size
  · rw [dif_pos (by omega), dif_neg (by omega), if_pos (by omega), Array.getD_eq_getD_getElem?,
      Array.getElem?_eq_getElem (by omega), Option.getD_some]
    congr 1; omega
  · rw [dif_neg (by omega), if_neg (by omega)]
    congr 1; omega

namespace Memory

/-- The memory with new bytes under `count` addresses from `first` on. -/
def overwrite (m : Memory) (first : Int) (count : Nat) (byte : Nat → UInt8) : Memory :=
  { m with
    ram := Array.ofFn fun i : Fin m.ram.size =>
      if first ≤ i.val ∧ i.val < first + count then byte (i.val - first).toNat else m.ram[i]
    size_le_ram := by simpa using m.size_le_ram }

/-- A block of bytes is written as a whole, or the first check that fails says why not. -/
theorem writeBlock_eq (m : Memory) (address : Int) {data : List UInt8} (some_ : data ≠ []) :
    m.writeBlock address data =
      if ¬ m.Holds address then .error (outside address)
      else if ¬ m.Holds (address + data.length - 1) then
        .error (outside (address + data.length - 1))
      else if address < glyphsEnd then .error (glyphsProtected address)
      else .ok (m.overwrite address data.length (data.getD · 0)) := by
  have nonempty : data.isEmpty = false := by simpa using some_
  simp only [writeBlock, nonempty, Bool.false_eq_true, if_false]
  split
  · rfl
  split
  · rfl
  split
  · rfl
  · rename_i low high _
    simp only [Decidable.not_not, Holds] at low high
    have fits : address + data.toArray.size ≤ m.ram.size := by
      have := m.size_le_ram
      simp only [List.size_toArray]
      omega
    have ram := splice_eq_ofFn low.1 fits
    simp only [List.size_toArray, Array.getD_eq_getD_getElem?, List.getElem?_toArray] at ram
    simp only [overwrite, ram, List.getD_eq_getElem?_getD]

end Memory

namespace Registers

@[simp] theorem get_set (r : Registers) (x z : Reg) (value : UInt8) :
    (r.set x value).get z = if x = z then value else r.get z := by
  simp only [get, set, Fin.getElem_fin, Vector.getElem_set, Fin.val_inj]

/-- The registers before the `count`-th from the memory behind the index register. -/
def loaded (r : Registers) (memory : Memory) (count : Nat) : Registers :=
  { r with v := Vector.ofFn fun z : Reg =>
      if z.val < count then memory.byteAt (r.index + z.val) else r.get z }

theorem v_eq_ofFn (r : Registers) : r.v = Vector.ofFn r.get := by
  ext i hi
  simp [get]

end Registers

namespace Memory

theorem overwrite_congr {m : Memory} {first : Int} {count : Nat} {f g : Nat → UInt8}
    (same : ∀ i < count, f i = g i) : m.overwrite first count f = m.overwrite first count g := by
  simp only [overwrite, mk.injEq, true_and, and_true]
  congr 1
  funext i
  split
  · exact same _ (by omega)
  · rfl

theorem getElem?_overwrite (m : Memory) (first : Int) (count : Nat) (bytes : Nat → UInt8) (i : Nat) :
    (m.overwrite first count bytes).ram[i]? =
      if first ≤ i ∧ i < first + count then m.ram[i]?.map fun _ => bytes (i - first).toNat
      else m.ram[i]? := by
  rw [overwrite, Array.getElem?_ofFn]
  by_cases held : i < m.ram.size
  · rw [dif_pos held, Array.getElem?_eq_getElem held, Option.map_some]
    exact apply_ite some _ _ _
  · rw [dif_neg held, Array.getElem?_eq_none (by omega), Option.map_none, ite_self]

/-- What was written is what is there. -/
theorem byteAt_overwrite {m : Memory} {first : Int} {count : Nat} (bytes : Nat → UInt8)
    {i : Nat} (low : 0 ≤ first) (high : first + count ≤ m.size) (inside : i < count) :
    (m.overwrite first count bytes).byteAt (first + i) = bytes i := by
  have fits := m.size_le_ram
  have place : ((first + i).toNat : Int) = first + i := by omega
  have held : (first + i).toNat < m.ram.size := by omega
  have offset : (first + i - first).toNat = i := by omega
  rw [byteAt, Array.getD_eq_getD_getElem?, getElem?_overwrite, place, if_pos (by omega), offset,
    Array.getElem?_eq_getElem held]
  rfl

/-- Bytes that are there already change nothing. -/
theorem overwrite_eq_self {m : Memory} {first : Int} {count : Nat} {bytes : Nat → UInt8}
    (there : ∀ i < count, bytes i = m.byteAt (first + i)) : m.overwrite first count bytes = m := by
  have ram : (m.overwrite first count bytes).ram = m.ram := by
    refine Array.ext_getElem? fun i => ?_
    rw [getElem?_overwrite]
    split
    · have here : first + (i - first).toNat = i := by omega
      rw [there _ (by omega), here]
      cases held : m.ram[i]? <;> simp [byteAt, held]
    · rfl
  cases m
  exact (mk.injEq ..).mpr ⟨rfl, rfl, ram, rfl⟩

/-- A block is written if and only if it lies in memory, above the glyphs. -/
theorem writeBlock_ok_iff {m m' : Memory} {address : Int} {data : List UInt8} (some_ : data ≠ []) :
    m.writeBlock address data = .ok m' ↔ 80 ≤ address ∧ address + data.length ≤ m.size ∧
      m' = m.overwrite address data.length (data.getD · 0) := by
  have positive := List.length_pos_iff.mpr some_
  rw [writeBlock_eq m address some_]
  constructor
  · intro h
    split at h
    · cases h
    split at h
    · cases h
    split at h
    · cases h
    · rename_i low high above
      simp only [Decidable.not_not, Holds, glyphsEnd] at low high above
      cases h
      exact ⟨by omega, by omega, rfl⟩
  · rintro ⟨low, high, rfl⟩
    have first : m.Holds address := ⟨by omega, by omega⟩
    have last : m.Holds (address + data.length - 1) := ⟨by omega, by omega⟩
    have above : ¬ address < glyphsEnd := Int.not_lt.mpr low
    simp only [first, last, above, not_true_eq_false, if_false]

theorem holds_iff {m : Memory} {address : Int} (h₀ : 0 ≤ address) :
    m.Holds address ↔ address < m.size :=
  and_iff_right h₀

/-- Which check a block fails that is refused. -/
theorem writeBlock_error_iff {m : Memory} {address : Int} (h₀ : 0 ≤ address)
    {data : List UInt8} (some_ : data ≠ []) {f : Fault} :
    m.writeBlock address data = .error f ↔
      m.size ≤ address ∧ f = outside address ∨
      address < m.size ∧ m.size < address + data.length ∧
        f = outside (address + data.length - 1) ∨
      address + data.length ≤ m.size ∧ address < 80 ∧ f = glyphsProtected address := by
  have positive := List.length_pos_iff.mpr some_
  rw [writeBlock_eq _ _ some_]
  simp only [holds_iff h₀, holds_iff (show 0 ≤ address + data.length - 1 by omega)]
  split
  · have first : m.size ≤ address := by omega
    have later : ¬ address < m.size ∧ ¬ address + data.length ≤ m.size := by omega
    simp [first, later, eq_comm]
  split
  · have last : address < m.size ∧ m.size < address + data.length := by omega
    have others : ¬ m.size ≤ address ∧ ¬ address + data.length ≤ m.size := by omega
    simp [last, others, eq_comm]
  have fits : address + data.length ≤ m.size := by omega
  have others : ¬ m.size ≤ address ∧ ¬ m.size < address + data.length := by omega
  split
  · rename_i glyphs
    have glyphs : address < 80 := glyphs
    simp [fits, others, glyphs, eq_comm]
  · rename_i above
    have above : ¬ address < 80 := above
    simp [others, above]

theorem readWord_ok_iff {m : Memory} {address : Int} {w : Nat} :
    m.readWord address = .ok w ↔ m.Holds address ∧ m.Holds (address + 1) ∧
      w = 256 * (m.byteAt address).toNat + (m.byteAt (address + 1)).toNat := by
  rw [readWord]
  by_cases first : m.Holds address
  · by_cases second : m.Holds (address + 1)
    · simp [first, second, Nat.mul_comm, eq_comm]
    · simp [first, second]
  · simp [first]

theorem readWord_error_iff {m : Memory} {address : Int} (h₀ : 0 ≤ address) {f : Fault} :
    m.readWord address = .error f ↔
      m.size ≤ address ∧ f = outside address ∨
      address + 1 = m.size ∧ f = outside (address + 1) := by
  rw [readWord]
  simp only [holds_iff h₀, holds_iff (show 0 ≤ address + 1 by omega)]
  split
  · have first : m.size ≤ address ∧ ¬ address + 1 = m.size := by omega
    simp [first, eq_comm]
  split
  · have second : ¬ m.size ≤ address ∧ address + 1 = m.size := by omega
    simp [second, eq_comm]
  · have neither : ¬ m.size ≤ address ∧ ¬ address + 1 = m.size := by omega
    simp [neither]

end Memory

namespace Machine

theorem mem_take_finRange {k : Nat} {z : Reg} : z ∈ (List.finRange 16).take k ↔ z.val < k := by
  rw [List.mem_take_iff_getElem]
  constructor
  · rintro ⟨i, hi, rfl⟩
    simp only [List.getElem_finRange, Fin.val_cast]
    omega
  · intro hz
    have := z.isLt
    exact ⟨z.val, by rw [List.length_finRange]; omega, by simp⟩

/-- The registers up to VX before and from the `k`-th on. -/
theorem regsThrough_split {x : Reg} {k : Nat} (hk : k ≤ x.val) :
    ∃ rest, regsThrough x = (List.finRange 16).take k ++ ⟨k, by omega⟩ :: rest := by
  have len : k < (regsThrough x).length := by simp [regsThrough]; omega
  have before : (regsThrough x).take k = (List.finRange 16).take k := by
    rw [regsThrough, List.take_take, Nat.min_eq_left (by omega)]
  have here : (regsThrough x)[k] = ⟨k, by omega⟩ := by simp [regsThrough]
  refine ⟨(regsThrough x).drop (k + 1), ?_⟩
  rw [← before, ← here, ← List.drop_eq_getElem_cons len, List.take_append_drop]

theorem fetchRegs_index {memory : Memory} {xs : List Reg} {r r' : Registers}
    {result : Except Failure Next} (h : fetchRegs memory r xs = (r', result)) :
    r' = { r with v := r'.v } := by
  induction xs generalizing r with
  | nil =>
    obtain rfl : r = r' := congrArg Prod.fst h
    rfl
  | cons x xs ih =>
    rw [fetchRegs] at h
    split at h
    · obtain rfl : r = r' := congrArg Prod.fst h
      rfl
    · have rest := ih h
      exact rest

/-- Registers that can be read are loaded, and the rest is gone on with. -/
theorem fetchRegs_append {memory : Memory} {xs ys : List Reg} {r : Registers}
    (readable : ∀ x ∈ xs, memory.Holds (r.index + x.val)) :
    fetchRegs memory r (xs ++ ys) =
      fetchRegs memory { r with v := Vector.ofFn fun z : Reg =>
        if z ∈ xs then memory.byteAt (r.index + z.val) else r.get z } ys := by
  induction xs generalizing r with
  | nil => simp [← Registers.v_eq_ofFn]
  | cons x xs ih =>
    have here : memory.read (r.index + x.val) = .ok (memory.byteAt (r.index + x.val)) :=
      if_pos (readable x (by simp))
    have values : ∀ z : Reg, (if z ∈ xs then memory.byteAt (r.index + z.val)
        else (r.set x (memory.byteAt (r.index + x.val))).get z) =
        if z ∈ x :: xs then memory.byteAt (r.index + z.val) else r.get z := by
      intro z
      by_cases hz : z ∈ xs
      · simp [hz]
      · by_cases hx : x = z
        · subst hx; simp [hz]
        · simp [hz, hx, Ne.symm hx]
    have rest := ih (r := r.set x (memory.byteAt (r.index + x.val))) fun z hz =>
      readable z (by simp [hz])
    rw [List.cons_append, fetchRegs, here]
    simp only [← values]
    exact rest

/-- Which error a load that is refused ends with, and what it has loaded by then. -/
theorem fetchRegs_eq (memory : Memory) (r : Registers) (x : Reg) (h₀ : 0 ≤ r.index) :
    fetchRegs memory r (regsThrough x) =
      if r.index + x.val < memory.size then (r.loaded memory (x.val + 1), .ok .onward)
      else (r.loaded memory (memory.size - r.index).toNat,
        .error (.fault (Memory.outside (max r.index memory.size)))) := by
  split
  · rename_i fits
    rw [← List.append_nil (regsThrough x), fetchRegs_append fun z hz => by
      have := mem_take_finRange.mp hz
      exact ⟨by omega, by omega⟩]
    simp only [fetchRegs, Registers.loaded, regsThrough, mem_take_finRange]
  · rename_i refused
    obtain ⟨rest, split⟩ := regsThrough_split
      (x := x) (k := (memory.size - r.index).toNat) (by omega)
    have first : memory.read (r.index + ((memory.size - r.index).toNat : Nat)) =
        .error (Memory.outside (max r.index memory.size)) := by
      rw [Memory.read, if_neg (by unfold Memory.Holds; omega),
        show r.index + ((memory.size - r.index).toNat : Nat) = max r.index memory.size by omega]
    rw [split, fetchRegs_append fun z hz => by
      have := mem_take_finRange.mp hz
      exact ⟨by omega, by omega⟩]
    simp only [fetchRegs, first, Registers.loaded, mem_take_finRange]

/-- Without an address from zero on nothing is loaded. -/
theorem fetchRegs_of_neg (memory : Memory) (r : Registers) (x : Reg) (h : r.index < 0) :
    fetchRegs memory r (regsThrough x) = (r, .error (.fault (Memory.outside r.index))) := by
  obtain ⟨rest, split⟩ := regsThrough_split (x := x) (k := 0) (Nat.zero_le _)
  have first : memory.read r.index = .error (Memory.outside r.index) :=
    if_neg fun holds => by have := holds.1; omega
  simp [split, fetchRegs, first]

theorem readRun_eq (memory : Memory) {address : Int} (h₀ : 0 ≤ address) (count : Nat) :
    readRun memory address count =
      if count = 0 ∨ address + count ≤ memory.size then
        .ok ((List.range count).map fun i : Nat => memory.byteAt (address + i))
      else .error (Memory.outside (max address memory.size)) := by
  induction count generalizing address with
  | zero => rfl
  | succ count ih =>
    rw [readRun, Memory.read]
    by_cases here : memory.Holds address
    · rw [if_pos here]
      dsimp only
      rw [ih (show 0 ≤ address + 1 by omega)]
      have := here.2
      by_cases fits : count = 0 ∨ address + 1 + count ≤ memory.size
      · rw [if_pos fits, if_pos (by omega), List.range_succ_eq_map]
        simp [Except.map, Function.comp_def, Int.add_assoc, Int.add_comm 1]
      · rw [if_neg fits, if_neg (by omega), Int.max_eq_right (by omega), Int.max_eq_right (by omega)]
        rfl
    · have : memory.size ≤ address := by unfold Memory.Holds at here; omega
      rw [if_neg here, if_neg (by omega), Int.max_eq_left this]

theorem readRun_of_neg (memory : Memory) {address : Int} (h : address < 0) (count : Nat) :
    readRun memory address (count + 1) = .error (Memory.outside address) := by
  rw [readRun, Memory.read, if_neg fun holds => by have := holds.1; omega]

/-- Bytes are read if and only if they lie in memory. -/
theorem readRun_ok_iff {memory : Memory} {address : Int} {count : Nat} {bytes : List UInt8} :
    readRun memory address count = .ok bytes ↔
      (count = 0 ∨ 0 ≤ address ∧ address + count ≤ memory.size) ∧
        bytes = (List.range count).map fun i : Nat => memory.byteAt (address + i) := by
  by_cases h₀ : 0 ≤ address
  · have guard : (count = 0 ∨ 0 ≤ address ∧ address + count ≤ memory.size) ↔
        (count = 0 ∨ address + count ≤ memory.size) := by omega
    rw [readRun_eq memory h₀, guard]
    split
    · rename_i fits
      simp [fits, eq_comm]
    · rename_i refused
      simp [refused]
  · cases count with
    | zero => simp [readRun, eq_comm]
    | succ count =>
      rw [readRun_of_neg memory (by omega)]
      simp [h₀]

/-- Registers are loaded if and only if the bytes for them lie in memory. -/
theorem fetchRegs_ok_iff {memory : Memory} {r r' : Registers} {x : Reg} {n : Next} :
    fetchRegs memory r (regsThrough x) = (r', .ok n) ↔
      0 ≤ r.index ∧ r.index + x.val < memory.size ∧ r' = r.loaded memory (x.val + 1) ∧
        n = .onward := by
  by_cases h₀ : 0 ≤ r.index
  · rw [fetchRegs_eq memory r x h₀]
    split
    · rename_i fits
      simp [h₀, fits, eq_comm]
    · rename_i refused
      simp [refused]
  · rw [fetchRegs_of_neg memory r x (by omega)]
    simp [h₀]

end Machine
end ChipEight
