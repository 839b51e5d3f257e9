import ChipEight.Proofs.Decoding
import ChipEight.System
/-! # Steps taken apart

What a step of a machine is made of, for whoever has to reason from a step that was taken: the word
at the program counter, the operation that it denotes, and how the operation ended
(`Machine.step_of_word`, `Machine.step_performed`).  A step of the system takes one of its machine
and then tells the observers (`System.machine_step_of_ok`, `System.step_of_fault`). -/

namespace ChipEight
namespace Machine

variable {m s : Machine}

theorem withPart_ok {part : Part} {run : Unit → Machine × Except Failure Next} {n : Next}
    (h : m.withPart part run = (s, .ok n)) : run () = (s, .ok n) := by
  rw [withPart] at h
  split at h
  · exact h
  · cases h

/-- A draw that returns has read its sprite and drawn it at VX and VY. -/
theorem drawRows_returns {x y : Reg} {rows : Nat} {n : Next}
    (h : m.drawRows x y rows = (s, .ok n)) : ∃ bytes display collision,
      readRun m.memory m.registers.index rows = .ok bytes ∧
      m.display.drawSprite (m.registers.get x).toNat (m.registers.get y).toNat
        (bytes.map fun b => (b.toNat : Int)) = .ok (display, collision) ∧
      s = { m with display, registers := m.registers.setFlag collision } ∧ n = .onward := by
  rw [drawRows] at h
  split at h
  · cases h
  split at h
  · cases h
  rename_i bytes read
  split at h
  · cases h
  split at h
  · cases h
  rename_i display collision drawn
  cases h
  exact ⟨bytes, display, collision, read, drawn, rfl, rfl⟩

theorem fetchWord_ok_iff (part : m.wiring.has .memory = true) {w : Nat} :
    m.fetchWord = .ok w ↔ m.WordAt w := by
  rw [WordAt, ← Memory.readWord_ok_iff, fetchWord, if_pos part]
  cases m.memory.readWord m.registers.pc <;> simp

theorem WordAt.lt {w : Nat} (word : m.WordAt w) : w < 65536 := by
  have high := (m.memory.byteAt m.registers.pc).toNat_lt
  have low := (m.memory.byteAt (m.registers.pc + 1)).toNat_lt
  have := word.2.2
  omega

theorem WordAt.unique {v w : Nat} (hv : m.WordAt v) (hw : m.WordAt w) : v = w :=
  hv.2.2.trans hw.2.2.symm

theorem decode_of_lt {w : Nat} (hw : w < 65536) :
    Instruction.decode w = ⟨w, Operation.ofWord w⟩ := by
  have low : ((w : Int) % 65536).toNat = w := by omega
  simp only [Instruction.decode, low]

/-- A step carries out the operation that the word at the program counter denotes. -/
theorem step_of_word (part : m.wiring.has .memory = true) {w : Nat} (word : m.WordAt w) :
    m.step = m.execute ⟨w, Operation.ofWord w⟩ m.registers.pc := by
  have fetched := (fetchWord_ok_iff part).mpr word
  simp only [step, part, not_true_eq_false, if_false, fetched, decode_of_lt word.lt]

theorem execute_ok_iff {i : Instruction} {address : Int} :
    (∃ r, m.execute i address = (s, .ok r)) ↔
      ∃ after n, m.perform address i.operation = (after, .ok n) ∧
        s = after.goesOn (n.address address) := by
  rw [execute]
  rcases m.perform address i.operation with ⟨after, e | n⟩
  · simp
  · constructor
    · rintro ⟨r, h⟩
      cases h
      exact ⟨after, n, rfl, rfl⟩
    · rintro ⟨_, _, h, rfl⟩
      cases h
      exact ⟨_, rfl⟩

theorem execute_error_iff {i : Instruction} {address : Int} {e : Failure} :
    m.execute i address = (s, .error e) ↔ m.perform address i.operation = (s, .error e) := by
  rw [execute]
  rcases m.perform address i.operation with ⟨after, e' | n⟩ <;> simp

theorem wordAt_of_step {r : StepReport} (h : m.step = (s, .ok r)) :
    m.wiring.has .memory = true ∧ ∃ w, m.WordAt w := by
  by_cases part : m.wiring.has .memory = true
  · refine ⟨part, ?_⟩
    cases fetched : m.fetchWord with
    | ok w => exact ⟨w, (fetchWord_ok_iff part).mp fetched⟩
    | error e =>
      simp only [step, part, not_true_eq_false, if_false, fetched] at h
      cases h
  · rw [step, if_pos part] at h
    cases h

/-- A step that returns has carried out the operation of the word at the program counter. -/
theorem step_performed {r : StepReport} (h : m.step = (s, .ok r)) : ∃ w after n, m.WordAt w ∧
    m.perform m.registers.pc (Operation.ofWord w) = (after, .ok n) ∧
      s = after.goesOn (n.address m.registers.pc) := by
  obtain ⟨part, w, word⟩ := wordAt_of_step h
  rw [step_of_word part word] at h
  obtain ⟨after, n, performed, rfl⟩ := execute_ok_iff.mp ⟨r, h⟩
  exact ⟨w, after, n, word, performed, rfl⟩

/-- A machine of one pixel that is about to run the given code, which lies behind the glyphs. -/
def running (code : Array UInt8) : Machine where
  registers := .create defaultStackDepth glyphsEnd
  memory := ⟨(glyphRows ++ code).size, glyphsEnd, glyphRows ++ code, code.size, Nat.le_refl _⟩
  display := ⟨.blank 1 1, false, 0, 0⟩
  timers := default
  keypad := .fresh
  source := default
  cycles := 0
  unknownCount := 0
  wiring := {}

end Machine

namespace System

variable {s t : System}

theorem machine_step_of_ok {r : StepReport} (h : s.step = (t, .ok r)) :
    s.machine.step = (t.machine, .ok r) := by
  rw [step] at h
  split at h
  · cases h
  · cases h
  · rename_i m r' stepped
    cases h
    exact stepped

/-- A step of the system fails with a fault if its machine does. -/
theorem step_of_fault {f : Fault} {m : Machine}
    (h : s.machine.step = (m, .error (.fault f))) :
    s.step = ({ s with
      machine := m
      observers := { s.observers with
          journal := s.machine.journalStep s.observers.journal }.report f true
        (.record [("pc", .int m.registers.pc), ("cycle", .int s.cycleCount)]) },
      .error (.fault f)) := by
  rw [step, h]

theorem machine_step_of_fault {f : Fault} (h : s.step = (t, .error (.fault f))) :
    ∃ m, s.machine.step = (m, .error (.fault f)) := by
  rw [step] at h
  split at h
  · rename_i m f' stepped
    cases h
    exact ⟨m, stepped⟩
  · rename_i m e other stepped
    cases h
    exact absurd rfl (other f)
  · cases h

end System
end ChipEight
