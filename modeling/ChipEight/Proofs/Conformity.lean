import ChipEight.Proofs.Stepping
import Mathlib.Data.Nat.Bitwise
/-! # Steps do what the table says

`perform_effect` takes the second column of the instruction table row by row: an operation that
succeeds has the effect of its row.  `effect_perform` is the converse, so no two rows disagree.
With the first column (`denotes_iff`) a step that returns leaves the machine that the table
prescribes for the word at the program counter, and no other. -/

namespace ChipEight
namespace Machine

variable {m : Machine}

/-! ## Registers as numbers -/

theorem ofNat_V (m : Machine) (x : Reg) : UInt8.ofNat (m.V x) = m.registers.get x := by
  simp [V]

theorem withV_eq {r : Registers} {values : Reg → Nat} (frame : r = { m.registers with v := r.v })
    (h : ∀ z, r.get z = UInt8.ofNat (values z)) : { m with registers := r } = m.withV values := by
  rw [withV, frame, r.v_eq_ofFn, funext h]

theorem setReg_eq_put (x : Reg) (value : UInt8) : m.setReg x value = m.put x value.toNat := by
  refine withV_eq rfl fun z => ?_
  rw [Registers.get_set]
  by_cases hz : x = z
  · subst hz; simp
  · simp [hz, Ne.symm hz, ofNat_V]

theorem setFlag_eq_put (flag : Bool) : { m with registers := m.registers.setFlag flag } =
    m.put Reg.flag (if flag = true then 1 else 0) := by
  rw [show (if flag = true then 1 else 0) = (if flag then 1 else 0 : UInt8).toNat by
    cases flag <;> rfl]
  exact setReg_eq_put Reg.flag _

theorem withV_withV (m : Machine) (first second : Reg → Nat) :
    (m.withV first).withV second = m.withV second := by
  simp only [withV]

theorem put_put (x y : Reg) (a b : Nat) (ha : a < 256) :
    (m.put x a).put y b = m.withV (Function.update (Function.update m.V x a) y b) := by
  have hV : (m.put x a).V = Function.update m.V x a := by
    funext z
    simp only [V, Registers.get, put, withV, Fin.getElem_fin, Vector.getElem_ofFn,
      UInt8.toNat_ofNat']
    by_cases hz : z = x
    · subst hz; simp; omega
    · simp [hz, V]
  rw [put, hV, put, withV_withV]

theorem setWithFlag_eq (x : Reg) (value : UInt8) {flag : Bool} {p : Prop} [Decidable p]
    (h : flag = true ↔ p) : m.setWithFlag x value flag = m.putThenFlag x value.toNat p := by
  have first : m.setWithFlag x value flag =
      { m.setReg x value with registers := (m.setReg x value).registers.setFlag flag } := rfl
  rw [first, setFlag_eq_put, setReg_eq_put, put_put _ _ _ _ value.toNat_lt, putThenFlag]
  simp only [h]

theorem address_skipIf {condition : Bool} {p : Prop} [Decidable p] (h : condition = true ↔ p) :
    (skipIf condition).address m.registers.pc = m.skipping p := by
  by_cases hp : p
  · simp [skipIf, h.mpr hp, skipping, hp, Next.address, instructionSize]
  · have : condition = false := by simpa [hp] using h
    simp [skipIf, this, skipping, hp, Next.address, onward, instructionSize]

theorem V_eq_iff {x : Reg} {value : UInt8} : m.registers.get x = value ↔ m.V x = value.toNat :=
  UInt8.toNat_inj.symm

/-! ## Bits -/

theorem lowBit_iff (a : UInt8) : (a &&& 1 != 0) = true ↔ a.toNat % 2 = 1 := by
  rw [bne_iff_ne, ne_eq, ← UInt8.toNat_inj, UInt8.toNat_and]
  simp [Nat.and_one_is_mod]

theorem highBit_iff (a : UInt8) : (a &&& 128 != 0) = true ↔ 128 ≤ a.toNat := by
  have ha := a.toNat_lt
  rw [bne_iff_ne, ne_eq, ← UInt8.toNat_inj, UInt8.toNat_and,
    show (128 : UInt8).toNat = 2 ^ 7 from rfl, Nat.and_two_pow, Nat.testBit_eq_decide_div_mod_eq]
  by_cases high : 128 ≤ a.toNat
  · simp [high, show a.toNat / 128 % 2 = 1 by omega]
  · simp [high, show a.toNat / 128 % 2 = 0 by omega]

theorem toNat_shiftLeft_one (a : UInt8) : (a <<< 1).toNat = 2 * a.toNat % 256 := by
  simp [UInt8.toNat_shiftLeft, Nat.shiftLeft_eq, Nat.mul_comm]

theorem toNat_shiftRight_one (a : UInt8) : (a >>> 1).toNat = a.toNat / 2 := by
  simp [UInt8.toNat_shiftRight, Nat.shiftRight_eq_div_pow]

theorem toNat_sub (a b : UInt8) : (a - b).toNat = (256 + a.toNat - b.toNat) % 256 := by
  have := b.toNat_lt
  rw [UInt8.toNat_sub]
  omega

/-! ## Operations on the parts -/

theorem blank_eq_tabulate (w h : Nat) : Grid.blank w h = .tabulate w h fun _ _ => false :=
  Grid.eq_tabulate rfl rfl fun x y _ _ => by
    simp [Grid.get, Grid.blank, Array.getD_eq_getD_getElem?, Array.getElem?_replicate]
    split <;> rfl

theorem isPressed_natCast (k : Keypad) (n : Nat) :
    k.isPressed (n : Int) = k.isDown (Fin.ofNat 16 n) := by
  rw [Keypad.isPressed]
  congr 1
  exact Fin.ext (by simp only [Fin.ofNat]; omega)

theorem drawn_setFlag (x y : Reg) (rows : Nat) (flag : Bool) :
    { m.drawn x y rows with registers := m.registers.setFlag flag } =
      (m.drawn x y rows).put Reg.flag (if flag = true then 1 else 0) :=
  @setFlag_eq_put (m.drawn x y rows) flag

/-- Drawing, with the parts connected. -/
theorem drawRows_eq (connected : m.Connected) (x y : Reg) (rows : Nat) :
    m.drawRows x y rows =
      match readRun m.memory m.registers.index rows with
      | .error f => (m, .error (.fault f))
      | .ok bytes =>
        match m.display.drawSprite (m.V x) (m.V y) (bytes.map fun b => (b.toNat : Int)) with
        | .error e => (m, .error e)
        | .ok (display, collision) =>
          ({ m with display, registers := m.registers.setFlag collision }, .ok .onward) := by
  simp only [drawRows, connected.parts, not_true_eq_false, and_false, if_false]
  rfl

theorem drawRows_ok_iff (connected : m.Connected) {x y : Reg} {rows : Nat} {after : Machine}
    {n : Next} : m.drawRows x y rows = (after, .ok n) ↔
      (rows = 0 ∨ m.Readable rows) ∧ n = .onward ∧
        after = (m.drawn x y rows).put Reg.flag
          (if Display.Collides m.display.grid (m.V x) (m.V y) (m.sprite rows) then 1 else 0) := by
  have flag := drawn_setFlag (m := m) x y rows
    (decide (Display.Collides m.display.grid (m.V x) (m.V y) (m.sprite rows)))
  simp only [decide_eq_true_iff] at flag
  rw [drawRows_eq connected, ← flag]
  cases read : readRun m.memory m.registers.index rows with
  | error f =>
    have refused : ¬ (rows = 0 ∨ m.Readable rows) := fun readable => by
      rw [readRun_ok_iff.mpr ⟨readable, rfl⟩] at read
      cases read
    simp [refused]
  | ok bytes =>
    obtain ⟨readable, rfl⟩ := readRun_ok_iff.mp read
    have row : rows = 0 ∨ m.Readable rows := readable
    dsimp only
    rw [Display.drawSprite_eq connected.width_pos connected.height_pos, List.map_map]
    constructor
    · intro h
      cases h
      exact ⟨row, rfl, rfl⟩
    · rintro ⟨-, rfl, rfl⟩
      rfl

theorem storeBlock_ok_iff {data : List UInt8} (some_ : data ≠ []) {after : Machine} {n : Next} :
    m.storeBlock data = (after, .ok n) ↔ m.Writable data.length ∧
      after = m.stored data.length (data.getD · 0) ∧ n = .onward := by
  rw [storeBlock]
  cases written : m.memory.writeBlock m.registers.index data with
  | error f =>
    have refused : ¬ m.Writable data.length := fun writable => by
      rw [(Memory.writeBlock_ok_iff some_).mpr ⟨writable.1, writable.2, rfl⟩] at written
      cases written
    simp [refused]
  | ok memory =>
    obtain ⟨low, high, rfl⟩ := (Memory.writeBlock_ok_iff some_).mp written
    have writable : m.Writable data.length := ⟨low, high⟩
    simp [writable, stored, eq_comm]

/-! ## The second column -/

theorem ret_effect {address : Int} {after : Machine} {n : Next}
    (h : m.perform address .ret = (after, .ok n)) : Effect m .ret after (n.address address) := by
  simp only [perform, Registers.pop] at h
  cases stack : m.registers.stack with
  | nil => simp [stack] at h
  | cons target rest =>
    simp only [stack] at h
    cases h
    exact .ret stack

theorem call_effect {target : Nat} {after : Machine} {n : Next}
    (h : m.perform m.registers.pc (.call target) = (after, .ok n)) :
    Effect m (.call target) after (n.address m.registers.pc) := by
  simp only [perform, Registers.push, Registers.depth] at h
  by_cases full : m.registers.stackDepth ≤ m.registers.stack.length
  · simp [full] at h
  · simp only [full, if_false] at h
    cases h
    exact .call (by omega)

theorem random_effect {address : Int} {x : Reg} {mask : UInt8} {after : Machine} {n : Next}
    (h : m.perform address (.random x mask) = (after, .ok n)) :
    Effect m (.random x mask) after m.onward ∧ n = .onward := by
  rcases drawn : m.source.draw with ⟨byte, source⟩
  simp only [perform, drawn] at h
  cases h
  have row := @Effect.random m x mask _ _ drawn
  rw [← UInt8.toNat_and, ← setReg_eq_put] at row
  exact ⟨row, rfl⟩

theorem toNat_ofKey (key : Key) : (UInt8.ofNat key.val).toNat = key.val := by
  have := key.isLt
  rw [UInt8.toNat_ofNat']
  omega

theorem waitKey_effect (connected : m.Connected) {x : Reg} {after : Machine} {n : Next}
    (h : m.perform m.registers.pc (.waitKey x) = (after, .ok n)) :
    Effect m (.waitKey x) after (n.address m.registers.pc) := by
  simp only [perform, withPart, connected.parts, if_true, Keypad.waitForKey] at h
  cases latched : m.keypad.latched with
  | none =>
    simp only [latched] at h
    cases h
    have row := Effect.waitKey_none (x := x) latched
    simp only [latched] at row
    exact row
  | some key =>
    simp only [latched] at h
    cases h
    have row := Effect.waitKey_some (x := x) latched
    rw [← toNat_ofKey, ← setReg_eq_put] at row
    exact row

theorem stored_digits (m : Machine) (x : Reg) {d e f : Nat} (hd : d < 10) (he : e < 10)
    (hf : f < 10) (value : m.V x = 100 * d + 10 * e + f) :
    m.stored 3 (fun i => UInt8.ofNat ([d, e, f].getD i 0)) =
      m.stored 3 ((decimalDigits (m.registers.get x)).getD · 0) := by
  congr 1
  funext i
  have value : (m.registers.get x).toNat = 100 * d + 10 * e + f := value
  match i with
  | 0 | 1 | 2 => exact UInt8.toNat_inj.mp (by simp [decimalDigits, value]; omega)
  | _ + 3 => rfl

theorem digits_ok_iff (connected : m.Connected) {x : Reg} {after : Machine} {n : Next} :
    m.perform m.registers.pc (.digits x) = (after, .ok n) ↔ m.Writable 3 ∧
      after = m.stored 3 ((decimalDigits (m.registers.get x)).getD · 0) ∧ n = .onward := by
  simp only [perform, withPart, connected.parts, if_true]
  have some_ : decimalDigits (m.registers.get x) ≠ [] := by simp [decimalDigits]
  exact storeBlock_ok_iff some_

theorem digits_effect (connected : m.Connected) {x : Reg} {after : Machine} {n : Next}
    (h : m.perform m.registers.pc (.digits x) = (after, .ok n)) :
    Effect m (.digits x) after (n.address m.registers.pc) := by
  obtain ⟨writable, rfl, rfl⟩ := (digits_ok_iff connected).mp h
  have bound : m.V x < 256 := (m.registers.get x).toNat_lt
  have value : m.V x = 100 * (m.V x / 100) + 10 * (m.V x % 100 / 10) + m.V x % 10 := by omega
  have row := Effect.digits (by omega) (by omega) (by omega) value writable
  rw [stored_digits m x (by omega) (by omega) (by omega) value] at row
  exact row

theorem length_regsThrough (x : Reg) : (regsThrough x).length = x.val + 1 := by
  rw [regsThrough, List.length_take, List.length_finRange]
  omega

theorem stored_regs (m : Machine) (x : Reg) :
    m.stored (x + 1) (fun i => UInt8.ofNat (m.V (Fin.ofNat 16 i))) =
      m.stored (x + 1) (((regsThrough x).map m.registers.get).getD · 0) := by
  have bytes : ∀ i < x.val + 1, UInt8.ofNat (m.V (Fin.ofNat 16 i)) =
      ((regsThrough x).map m.registers.get).getD i 0 := by
    intro i hi
    have reg : (Fin.ofNat 16 i : Reg) = ⟨i, by omega⟩ := Fin.ext (Nat.mod_eq_of_lt (by omega))
    have length := length_regsThrough x
    rw [ofNat_V, List.getD_eq_getElem?_getD, List.getElem?_eq_getElem (by simp; omega), reg]
    simp [regsThrough]
  rw [stored, Memory.overwrite_congr bytes]
  rfl

theorem store_ok_iff (part : m.wiring.has .memory = true) {address : Int} {x : Reg}
    {after : Machine} {n : Next} :
    m.perform address (.store x) = (after, .ok n) ↔ m.Writable (x + 1) ∧
      after = m.stored (x + 1) (fun i => UInt8.ofNat (m.V (Fin.ofNat 16 i))) ∧ n = .onward := by
  have length : ((regsThrough x).map m.registers.get).length = x.val + 1 := by
    rw [List.length_map, length_regsThrough]
  have some_ : (regsThrough x).map m.registers.get ≠ [] := List.length_pos_iff.mp (by omega)
  have block := @storeBlock_ok_iff m _ some_ after n
  rw [length] at block
  rw [stored_regs]
  simp only [perform, withPart, part, if_true]
  exact block

theorem withV_loaded (m : Machine) (x : Reg) :
    { m with registers := m.registers.loaded m.memory (x + 1) } =
      m.withV fun z =>
        if z ≤ x then (m.memory.byteAt (m.registers.index + z.val)).toNat else m.V z := by
  refine withV_eq rfl fun z => ?_
  have below : z.val < x.val + 1 ↔ z ≤ x := Nat.lt_succ_iff
  simp only [Registers.loaded, Registers.get, Fin.getElem_fin, Vector.getElem_ofFn, below]
  by_cases hz : z ≤ x
  · simp [hz]
  · simp [hz, ofNat_V, Registers.get]

theorem fetch_ok_iff (connected : m.Connected) {x : Reg} {after : Machine} {n : Next} :
    m.perform m.registers.pc (.fetch x) = (after, .ok n) ↔ m.Readable (x + 1) ∧
      after = { m with registers := m.registers.loaded m.memory (x + 1) } ∧ n = .onward := by
  have readable : m.Readable (x + 1) ↔
      0 ≤ m.registers.index ∧ m.registers.index + x.val < m.memory.size := by
    rw [Readable]; omega
  simp only [perform, withPart, connected.parts, if_true]
  rcases fetched : fetchRegs m.memory m.registers (regsThrough x) with ⟨r, result⟩
  rw [readable]
  constructor
  · intro h
    cases h
    obtain ⟨low, high, rfl, rfl⟩ := fetchRegs_ok_iff.mp fetched
    exact ⟨⟨low, high⟩, rfl, rfl⟩
  · rintro ⟨⟨low, high⟩, rfl, rfl⟩
    rw [fetchRegs_ok_iff.mpr ⟨low, high, rfl, rfl⟩] at fetched
    cases fetched
    rfl

/-- **An operation that succeeds has the effect of its row.** -/
theorem perform_effect (connected : m.Connected) {op : Operation} {after : Machine} {n : Next}
    (h : m.perform m.registers.pc op = (after, .ok n)) :
    Effect m op after (n.address m.registers.pc) := by
  cases op with
  | clear =>
    rw [perform] at h
    cases withPart_ok h
    rw [Display.clear, blank_eq_tabulate]
    exact .clear
  | ret => exact ret_effect h
  | jump target =>
    cases h
    exact .jump
  | call target => exact call_effect h
  | skipEq x byte =>
    cases h
    rw [address_skipIf (beq_iff_eq.trans V_eq_iff)]
    exact .skipEq
  | skipNe x byte =>
    cases h
    rw [address_skipIf (bne_iff_ne.trans (not_congr V_eq_iff))]
    exact .skipNe
  | skipEqReg x y =>
    cases h
    rw [address_skipIf (beq_iff_eq.trans V_eq_iff)]
    exact .skipEqReg
  | skipNeReg x y =>
    cases h
    rw [address_skipIf (bne_iff_ne.trans (not_congr V_eq_iff))]
    exact .skipNeReg
  | load x byte =>
    cases h
    rw [setReg_eq_put]
    exact .load
  | add x byte =>
    cases h
    rw [setReg_eq_put, UInt8.toNat_add]
    exact .add
  | move x y =>
    cases h
    rw [setReg_eq_put]
    exact .move
  | or x y =>
    cases h
    rw [setReg_eq_put, UInt8.toNat_or]
    exact .or
  | and x y =>
    cases h
    rw [setReg_eq_put, UInt8.toNat_and]
    exact .and
  | xor x y =>
    cases h
    rw [setReg_eq_put, UInt8.toNat_xor]
    exact .xor
  | addReg x y =>
    cases h
    rw [setWithFlag_eq x _ decide_eq_true_iff, UInt8.toNat_add]
    exact .addReg
  | sub x y =>
    cases h
    rw [setWithFlag_eq x _ (decide_eq_true_iff.trans UInt8.lt_iff_toNat_lt), toNat_sub]
    exact .sub
  | shiftRight x y =>
    cases h
    rw [setWithFlag_eq x _ (lowBit_iff _), toNat_shiftRight_one]
    exact .shiftRight
  | subFrom x y =>
    cases h
    rw [setWithFlag_eq x _ (decide_eq_true_iff.trans UInt8.lt_iff_toNat_lt), toNat_sub]
    exact .subFrom
  | shiftLeft x y =>
    cases h
    rw [setWithFlag_eq x _ (highBit_iff _), toNat_shiftLeft_one]
    exact .shiftLeft
  | loadIndex target =>
    cases h
    exact .loadIndex
  | jumpOffset target =>
    cases h
    exact .jumpOffset
  | random x mask =>
    obtain ⟨row, rfl⟩ := random_effect h
    exact row
  | draw x y rows =>
    obtain ⟨readable, rfl, rfl⟩ := (drawRows_ok_iff connected).mp h
    exact .draw readable
  | skipPressed x =>
    rw [perform] at h
    cases withPart_ok h
    rw [isPressed_natCast, address_skipIf Iff.rfl]
    exact .skipPressed
  | skipReleased x =>
    rw [perform] at h
    cases withPart_ok h
    rw [isPressed_natCast, address_skipIf (Bool.not_eq_true' _).to_iff]
    exact .skipReleased
  | readDelay x =>
    rw [perform] at h
    cases withPart_ok h
    rw [setReg_eq_put]
    exact .readDelay
  | waitKey x => exact waitKey_effect connected h
  | setDelay x =>
    rw [perform] at h
    cases withPart_ok h
    rw [← ofNat_V]
    exact .setDelay
  | setSound x =>
    rw [perform] at h
    cases withPart_ok h
    rw [← ofNat_V]
    exact .setSound
  | addIndex x =>
    cases h
    exact .addIndex
  | glyph x =>
    rw [perform] at h
    cases withPart_ok h
    exact .glyph
  | digits x => exact digits_effect connected h
  | store x =>
    obtain ⟨writable, rfl, rfl⟩ := (store_ok_iff (connected.parts _)).mp h
    exact .store writable
  | fetch x =>
    obtain ⟨readable, rfl, rfl⟩ := (fetch_ok_iff connected).mp h
    rw [withV_loaded]
    exact .fetch readable
  | unknown w =>
    cases h
    exact .unknown

/-- **A row that applies is what the operation does**: the converse of `perform_effect`. -/
theorem effect_perform (connected : m.Connected) {op : Operation} {after : Machine} {next : Int}
    (h : Effect m op after next) :
    ∃ n, m.perform m.registers.pc op = (after, .ok n) ∧ n.address m.registers.pc = next := by
  have part := connected.parts
  cases h with
  | clear =>
    refine ⟨.onward, ?_, rfl⟩
    rw [← blank_eq_tabulate]
    simp [perform, withPart, part, Display.clear]
  | ret stack => exact ⟨.goto _, by simp [perform, Registers.pop, stack], rfl⟩
  | jump => exact ⟨.goto _, rfl, rfl⟩
  | call room =>
    refine ⟨.goto _, ?_, rfl⟩
    have free : ¬ m.registers.stackDepth ≤ m.registers.stack.length := Int.not_le.mpr room
    simp [perform, Registers.push, Registers.depth, free, instructionSize]
  | skipEq => exact ⟨_, rfl, address_skipIf (beq_iff_eq.trans V_eq_iff)⟩
  | skipNe => exact ⟨_, rfl, address_skipIf (bne_iff_ne.trans (not_congr V_eq_iff))⟩
  | skipEqReg => exact ⟨_, rfl, address_skipIf (beq_iff_eq.trans V_eq_iff)⟩
  | skipNeReg => exact ⟨_, rfl, address_skipIf (bne_iff_ne.trans (not_congr V_eq_iff))⟩
  | load => exact ⟨.onward, by rw [← setReg_eq_put]; rfl, rfl⟩
  | add => exact ⟨.onward, by rw [V, ← UInt8.toNat_add, ← setReg_eq_put]; rfl, rfl⟩
  | move => exact ⟨.onward, by rw [V, ← setReg_eq_put]; rfl, rfl⟩
  | or => exact ⟨.onward, by rw [V, V, ← UInt8.toNat_or, ← setReg_eq_put]; rfl, rfl⟩
  | and => exact ⟨.onward, by rw [V, V, ← UInt8.toNat_and, ← setReg_eq_put]; rfl, rfl⟩
  | xor => exact ⟨.onward, by rw [V, V, ← UInt8.toNat_xor, ← setReg_eq_put]; rfl, rfl⟩
  | addReg =>
    refine ⟨.onward, ?_, rfl⟩
    rw [perform, setWithFlag_eq _ _ decide_eq_true_iff, UInt8.toNat_add]
    rfl
  | sub =>
    refine ⟨.onward, ?_, rfl⟩
    rw [perform, setWithFlag_eq _ _ (decide_eq_true_iff.trans UInt8.lt_iff_toNat_lt), toNat_sub]
    rfl
  | shiftRight =>
    refine ⟨.onward, ?_, rfl⟩
    rw [perform, setWithFlag_eq _ _ (lowBit_iff _), toNat_shiftRight_one]
    rfl
  | subFrom =>
    refine ⟨.onward, ?_, rfl⟩
    rw [perform, setWithFlag_eq _ _ (decide_eq_true_iff.trans UInt8.lt_iff_toNat_lt), toNat_sub]
    rfl
  | shiftLeft =>
    refine ⟨.onward, ?_, rfl⟩
    rw [perform, setWithFlag_eq _ _ (highBit_iff _), toNat_shiftLeft_one]
    rfl
  | loadIndex => exact ⟨.onward, rfl, rfl⟩
  | jumpOffset => exact ⟨.goto _, rfl, rfl⟩
  | random drawn =>
    refine ⟨.onward, ?_, rfl⟩
    rw [← UInt8.toNat_and, ← setReg_eq_put]
    simp [perform, drawn, setReg]
  | draw readable => exact ⟨_, (drawRows_ok_iff connected).mpr ⟨readable, rfl, rfl⟩, rfl⟩
  | skipPressed =>
    refine ⟨_, ?_, address_skipIf Iff.rfl⟩
    rw [← isPressed_natCast]
    simp only [perform, withPart, part, if_true]
    rfl
  | skipReleased =>
    refine ⟨_, ?_, address_skipIf (Bool.not_eq_true' _).to_iff⟩
    rw [← isPressed_natCast]
    simp only [perform, withPart, part, if_true]
    rfl
  | readDelay =>
    refine ⟨.onward, ?_, rfl⟩
    rw [← setReg_eq_put]
    simp only [perform, withPart, part, if_true]
  | waitKey_none latched =>
    exact ⟨.park, by simp [perform, withPart, part, Keypad.waitForKey, latched], rfl⟩
  | waitKey_some latched =>
    refine ⟨.onward, ?_, rfl⟩
    rw [← toNat_ofKey, ← setReg_eq_put]
    simp [perform, withPart, part, Keypad.waitForKey, latched, setReg]
  | setDelay => exact ⟨.onward, by simp [perform, withPart, part, ofNat_V], rfl⟩
  | setSound => exact ⟨.onward, by simp [perform, withPart, part, ofNat_V], rfl⟩
  | addIndex => exact ⟨.onward, rfl, rfl⟩
  | glyph =>
    refine ⟨.onward, ?_, rfl⟩
    simp only [perform, withPart, part, if_true]
    rfl
  | digits hd he hf value writable =>
    exact ⟨_, (digits_ok_iff connected).mpr
      ⟨writable, stored_digits m _ hd he hf value, rfl⟩, rfl⟩
  | store writable => exact ⟨_, (store_ok_iff (connected.parts _)).mpr ⟨writable, rfl, rfl⟩, rfl⟩
  | fetch readable =>
    exact ⟨_, (fetch_ok_iff connected).mpr ⟨readable, (withV_loaded m _).symm, rfl⟩, rfl⟩
  | unknown => exact ⟨.onward, rfl, rfl⟩

/-! ## The step -/

/-- **A step returns with exactly the machine that the table prescribes for the word at the
program counter**, and returns whenever the table prescribes one. -/
theorem step_returns_iff (connected : m.Connected) {w : Nat} (word : m.WordAt w) (s : Machine) :
    (∃ r, m.step = (s, .ok r)) ↔ m.Prescribed w s := by
  rw [step_of_word (connected.parts _) word, execute_ok_iff]
  constructor
  · rintro ⟨after, n, performed, rfl⟩
    exact ⟨_, after, _, (denotes_iff word.lt).mpr rfl, perform_effect connected performed, rfl⟩
  · rintro ⟨op, after, next, denoted, row, rfl⟩
    obtain rfl := (denotes_iff word.lt).mp denoted
    obtain ⟨n, performed, rfl⟩ := effect_perform connected row
    exact ⟨after, n, performed, rfl⟩

/-- A machine that is about to add V1 to VF. -/
def summing : Machine := ((running #[0x8F, 0x14]).put 15 200).put 1 100

/-- The sum goes into VF, modulo 256, and then its carry does. -/
theorem step_returns_carry : summing.Connected ∧ summing.WordAt 0x8F14 ∧
    summing.Prescribed 0x8F14 { summing with
      registers := { (summing.registers.set 15 44).set 15 1 with pc := 82 }, cycles := 1 } := by
  have connected : summing.Connected :=
    ⟨fun part => by cases part <;> rfl, Nat.one_pos, Nat.one_pos⟩
  have word : summing.WordAt 0x8F14 := by decide
  exact ⟨connected, word, (step_returns_iff connected word _).mp ⟨_, rfl⟩⟩

end Machine
end ChipEight
