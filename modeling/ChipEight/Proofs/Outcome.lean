import ChipEight.Proofs.CleanFailure
import ChipEight.Proofs.KeyDelivery
/-! # What a step can touch

`Machine.Outcome` says which parts of the machine an operation can touch and where it can go on, and
nothing of the values that it computes.  It needs nothing of the machine, so it holds of every
display, also of one without pixels.  `Machine.step_cases` puts it together with what a failing step
leaves behind. -/

namespace ChipEight

/-- The addresses that an operation carries have twelve bits. -/
def Operation.Bounded : Operation → Prop
  | .jump target | .call target | .loadIndex target | .jumpOffset target => target < 4096
  | _ => True

theorem Denotes.bounded {w : Nat} {op : Operation} (h : Denotes w op) : op.Bounded := by
  rcases h with row | ⟨rfl, -⟩
  · cases row with
    | jump small _ | call small _ | loadIndex small _ | jumpOffset small _ => exact small
    | _ => trivial
  · trivial

namespace Machine

variable {m s : Machine} {address : Int} {n : Next}

/-- What an operation that stands at an address can touch. -/
inductive Outcome (m : Machine) (address : Int) : Operation → Machine → Next → Prop
  /-- Values alone: registers, pixels, timers, the random source. -/
  | values {op : Operation} {s : Machine} {n : Next} :
      s = { m with
        registers := { m.registers with v := s.registers.v }
        display := s.display, timers := s.timers, source := s.source
        unknownCount := s.unknownCount } →
      n = .onward ∨ n = .skip → Outcome m address op s n
  | index {op : Operation} {index : Int} : 0 ≤ index → index < 65536 →
      Outcome m address op (m.setIndex index) .onward
  | stored {op : Operation} {data : List UInt8} {memory : Memory} :
      m.memory.writeBlock m.registers.index data = .ok memory →
      Outcome m address op { m with memory } .onward
  | jump {op : Operation} {target : Int} : 0 ≤ target → target ≤ 0x10FE →
      Outcome m address op m (.goto target)
  | call {target : Nat} : target < 4096 → m.registers.depth < m.registers.stackDepth →
      Outcome m address (.call target)
        { m with registers := { m.registers with
            stack := (address + 2) % 65536 :: m.registers.stack } } (.goto target)
  | ret {target : Int} {rest : List Int} : m.registers.stack = target :: rest →
      Outcome m address .ret { m with registers := { m.registers with stack := rest } }
        (.goto target)
  | park {x : Reg} : m.keypad.latched = none →
      Outcome m address (.waitKey x) { m with keypad := { m.keypad with state := .awaiting } } .park
  | key {x : Reg} {key : Key} : m.keypad.latched = some key →
      Outcome m address (.waitKey x)
        { m with
          keypad := { m.keypad with latched := none, state := .idle }
          registers := m.registers.set x (UInt8.ofNat key.val) } .onward

theorem skipIf_cases (condition : Bool) :
    skipIf condition = .onward ∨ skipIf condition = .skip := by
  cases condition
  · exact .inl rfl
  · exact .inr rfl

theorem storeBlock_outcome {op : Operation} {data : List UInt8}
    (h : m.storeBlock data = (s, .ok n)) : Outcome m address op s n := by
  rw [storeBlock] at h
  split at h
  · cases h
  · rename_i memory written
    cases h
    exact .stored written

theorem drawRows_outcome {op : Operation} {x y : Reg} {rows : Nat}
    (h : m.drawRows x y rows = (s, .ok n)) : Outcome m address op s n := by
  obtain ⟨_, _, _, -, -, rfl, rfl⟩ := drawRows_returns h
  exact .values rfl (.inl rfl)

theorem call_outcome {target : Nat} (small : target < 4096)
    (h : m.perform address (.call target) = (s, .ok n)) : Outcome m address (.call target) s n := by
  rw [perform, Registers.push] at h
  by_cases full : m.registers.stackDepth ≤ m.registers.depth
  · rw [if_pos full] at h
    cases h
  · rw [if_neg full] at h
    cases h
    exact .call small (by omega)

theorem waitKey_outcome {x : Reg} (h : m.perform address (.waitKey x) = (s, .ok n)) :
    Outcome m address (.waitKey x) s n := by
  rw [perform] at h
  have waited := withPart_ok h
  cases latched : m.keypad.latched with
  | none =>
    rw [Keypad.waitForKey_of_none latched] at waited
    cases waited
    exact .park latched
  | some key =>
    rw [Keypad.waitForKey_of_some latched] at waited
    cases waited
    exact .key latched

/-- **An operation that succeeds has one of the outcomes.** -/
theorem perform_outcome {op : Operation} (bounded : op.Bounded)
    (h : m.perform address op = (s, .ok n)) : Outcome m address op s n := by
  cases op with
  | ret =>
    rw [perform, Registers.pop] at h
    cases stack : m.registers.stack <;> rw [stack] at h <;> cases h
    exact .ret stack
  | call target => exact call_outcome bounded h
  | jump target =>
    cases h
    have : target < 4096 := bounded
    exact .jump (by omega) (by omega)
  | jumpOffset target =>
    cases h
    have : target < 4096 := bounded
    have := (m.registers.get 0).toNat_lt
    exact .jump (by omega) (by omega)
  | loadIndex target =>
    cases h
    have : target < 4096 := bounded
    exact .index (by omega) (by omega)
  | addIndex x =>
    cases h
    exact .index (by omega) (by omega)
  | glyph x =>
    rw [perform] at h
    cases withPart_ok h
    have small : Memory.glyphAddress (m.registers.get x).toNat < 65536 := by
      rw [Memory.glyphAddress, glyphHeight]
      omega
    exact .index (by omega) (by omega)
  | draw x y rows => exact drawRows_outcome h
  | digits x | store x =>
    rw [perform] at h
    exact storeBlock_outcome (withPart_ok h)
  | fetch x =>
    rw [perform] at h
    have fetched := withPart_ok h
    rcases loaded : fetchRegs m.memory m.registers (regsThrough x) with ⟨r, result⟩
    rw [loaded] at fetched
    cases fetched
    obtain ⟨-, -, -, onward⟩ := fetchRegs_ok_iff.mp loaded
    refine .values ?_ (.inl onward)
    dsimp only
    rw [← fetchRegs_index loaded]
  | waitKey x => exact waitKey_outcome h
  | skipEq x byte | skipNe x byte | skipEqReg x y | skipNeReg x y =>
    cases h
    exact .values rfl (skipIf_cases _)
  | skipPressed x | skipReleased x =>
    rw [perform] at h
    cases withPart_ok h
    exact .values rfl (skipIf_cases _)
  | clear | readDelay x | setDelay x | setSound x =>
    rw [perform] at h
    cases withPart_ok h
    exact .values rfl (.inl rfl)
  | _ =>
    cases h
    exact .values rfl (.inl rfl)

/-- **A step that returns** has executed the operation of the word at the program counter, and goes
on where its outcome says. -/
theorem step_outcome {r : StepReport} (h : m.step = (s, .ok r)) : ∃ w after n, m.WordAt w ∧
    Outcome m m.registers.pc (Operation.ofWord w) after n ∧
    s = after.goesOn (n.address m.registers.pc) ∧
    r = ⟨m.registers.pc, ⟨w, Operation.ofWord w⟩, n.address m.registers.pc % 65536, n == .park⟩ := by
  obtain ⟨part, w, word⟩ := wordAt_of_step h
  rw [step_of_word part word, execute] at h
  rcases performed : m.perform m.registers.pc (Operation.ofWord w) with ⟨after, e | n⟩ <;>
    rw [performed] at h <;> cases h
  have denoted := (denotes_iff word.lt).mpr (rfl : Operation.ofWord w = _)
  exact ⟨w, after, n, word, perform_outcome denoted.bounded performed, rfl, rfl⟩

/-- A step leaves everything but registers as it was, or it has executed an operation. -/
theorem step_cases (m : Machine) :
    m.step.1 = { m with registers := { m.registers with v := m.step.1.registers.v } } ∨
    ∃ w after n, m.WordAt w ∧ Outcome m m.registers.pc (Operation.ofWord w) after n ∧
      m.step.1 = after.goesOn (n.address m.registers.pc) := by
  rcases stepped : m.step with ⟨s, e | r⟩
  · exact .inl (step_fails_values stepped)
  · obtain ⟨w, after, n, word, outcome, machine, -⟩ := step_outcome stepped
    exact .inr ⟨w, after, n, word, outcome, machine⟩

end Machine
end ChipEight
