import ChipEight.Proofs.Continuity
/-! # Display, timers and random source

What the instructions do to the parts that the host looks at or feeds.  An operation that succeeds
sets the delay or the sound timer, takes a random byte, or draws, and leaves the display dirty if it
draws (`Machine.perform_touches`); one that fails does nothing of this.  `System.executed?` names
the operation of a turn, and with it `System.step_touches` says the same of the turns of a system. -/

namespace ChipEight

namespace Display

variable {d d' d'' : Display}

/-- A change of the display is flagged: it is as it was, or it is dirty. -/
def Flagged (d d' : Display) : Prop := d' = d ∨ d'.dirty = true

theorem Flagged.trans (first : d.Flagged d') (second : d'.Flagged d'') : d.Flagged d'' := by
  rcases second with rfl | dirty
  · exact first
  · exact .inr dirty

theorem drawSprite_dirty {x y : Int} {sprite : List Int} {hit : Bool}
    (h : d.drawSprite x y sprite = .ok (d', hit)) : d'.dirty = true := by
  rw [drawSprite] at h
  split at h <;> cases h
  rfl

end Display

namespace Machine

variable {m s : Machine} {address : Int} {op : Operation} {n : Next}

/-- The timers after an operation. -/
def timersAfter (m : Machine) : Operation → Timers
  | .setDelay x => { m.timers with delay := m.registers.get x }
  | .setSound x => { m.timers with sound := m.registers.get x }
  | _ => m.timers

/-- The random source after an operation. -/
def sourceAfter (m : Machine) : Operation → ByteSource
  | .random _ _ => m.source.draw.2
  | _ => m.source

/-- What an operation that succeeds does to timers, random source and display. -/
structure Touches (m : Machine) (op : Operation) (s : Machine) : Prop where
  timers : s.timers = m.timersAfter op
  source : s.source = m.sourceAfter op
  display : m.display.Flagged s.display

theorem storeBlock_touches {data : List UInt8} (timers : m.timers = m.timersAfter op)
    (source : m.source = m.sourceAfter op) (h : m.storeBlock data = (s, .ok n)) :
    m.Touches op s := by
  rw [storeBlock] at h
  split at h <;> cases h
  exact ⟨timers, source, .inl rfl⟩

theorem drawRows_touches {x y : Reg} {rows : Nat} (h : m.drawRows x y rows = (s, .ok n)) :
    m.Touches (.draw x y rows) s := by
  obtain ⟨_, _, _, -, drawn, rfl, -⟩ := drawRows_returns h
  exact ⟨rfl, rfl, .inr (Display.drawSprite_dirty drawn)⟩

/-- **Each operation touches its own part**, and no other. -/
theorem perform_touches (h : m.perform address op = (s, .ok n)) : m.Touches op s := by
  cases op with
  | ret =>
    rw [perform, Registers.pop] at h
    cases stack : m.registers.stack <;> rw [stack] at h <;> cases h
    exact ⟨rfl, rfl, .inl rfl⟩
  | call target =>
    rw [perform] at h
    split at h <;> cases h
    exact ⟨rfl, rfl, .inl rfl⟩
  | clear =>
    rw [perform] at h
    cases withPart_ok h
    exact ⟨rfl, rfl, .inr rfl⟩
  | draw x y rows => exact drawRows_touches h
  | digits x | store x =>
    rw [perform] at h
    exact storeBlock_touches rfl rfl (withPart_ok h)
  | waitKey x =>
    rw [perform] at h
    have waited := withPart_ok h
    split at waited <;> cases waited <;> exact ⟨rfl, rfl, .inl rfl⟩
  | fetch x =>
    rw [perform] at h
    rcases fetched : fetchRegs m.memory m.registers (regsThrough x) with ⟨r, result⟩
    have loaded := withPart_ok h
    rw [fetched] at loaded
    cases loaded
    exact ⟨rfl, rfl, .inl rfl⟩
  | skipPressed x | skipReleased x | readDelay x | setDelay x | setSound x | glyph x =>
    rw [perform] at h
    cases withPart_ok h
    exact ⟨rfl, rfl, .inl rfl⟩
  | _ =>
    cases h
    exact ⟨rfl, rfl, .inl rfl⟩

theorem execute_touches {i : Instruction} {r : StepReport}
    (h : m.execute i address = (s, .ok r)) : r.instruction = i ∧ m.Touches i.operation s := by
  rw [execute] at h
  rcases performed : m.perform address i.operation with ⟨after, e | n⟩ <;> rw [performed] at h <;>
    cases h
  obtain ⟨timers, source, display⟩ := perform_touches performed
  exact ⟨rfl, timers, source, display⟩

theorem step_touches {r : StepReport} (h : m.step = (s, .ok r)) :
    m.Touches r.instruction.operation s := by
  obtain ⟨part, w, word⟩ := wordAt_of_step h
  rw [step_of_word part word] at h
  obtain ⟨instruction, touches⟩ := execute_touches h
  rwa [instruction]

/-- An operation that fails touches none of the three parts. -/
theorem perform_fails_registers {e : Failure} (h : m.perform address op = (s, .error e)) :
    s = { m with registers := s.registers } := by
  rcases perform_fails h with ⟨rfl, -⟩ | ⟨x, r, -, -, rfl⟩ <;> rfl

theorem execute_flagged (m : Machine) (i : Instruction) (address : Int) :
    m.display.Flagged (m.execute i address).1.display := by
  rcases executed : m.execute i address with ⟨s, e | r⟩
  · rw [perform_fails_registers (execute_error_iff.mp executed)]
    exact .inl rfl
  · exact (execute_touches executed).2.display

theorem step_flagged (m : Machine) : m.display.Flagged m.step.1.display := by
  rw [step]
  split
  · exact .inl rfl
  split
  · exact .inl rfl
  · exact m.execute_flagged _ _

end Machine

namespace System

variable {s : System} {turn_ : Turn} {op : Operation}

/-- The operation that a turn carries out: that of a step that returns. -/
def executed? (s : System) : Turn → Option Operation
  | .step =>
    match s.step.2 with
    | .ok r => some r.instruction.operation
    | .error _ => none
  | _ => none

theorem executed?_eq_some_iff :
    s.executed? turn_ = some op ↔ turn_ = .step ∧ s.Executes op s.step.1 := by
  cases turn_ with
  | step =>
    rw [executed?]
    rcases stepped : s.step with ⟨t, e | r⟩
    · simp [Executes, stepped]
    obtain ⟨w, after, n, word, -, -, report⟩ := Machine.step_outcome (machine_step_of_ok stepped)
    simp only [Option.some.injEq, true_and, report]
    constructor
    · rintro rfl
      exact ⟨w, r, word, (denotes_iff word.lt).mpr rfl, stepped⟩
    · rintro ⟨v, -, other, denoted, -⟩
      obtain rfl := other.unique word
      exact (denotes_iff word.lt).mp denoted
  | _ => simp [executed?]

theorem executed_touches (executed : s.executed? turn_ = some op) :
    s.machine.Touches op (s.turn turn_).machine := by
  cases turn_ with
  | step =>
    rw [executed?] at executed
    rw [turn]
    rcases stepped : s.step with ⟨t, e | r⟩ <;> rw [stepped] at executed <;> cases executed
    exact Machine.step_touches (machine_step_of_ok stepped)
  | _ => cases executed

/-- A step that fails touches none of the three parts. -/
theorem step_idle (idle : s.executed? .step = none) :
    s.step.1.machine = { s.machine with registers := s.step.1.machine.registers } := by
  rw [step_machine]
  rcases stepped : s.machine.step with ⟨m, e | r⟩
  · rw [Machine.step_fails_values stepped]
  · simp only [executed?, step, stepped] at idle
    cases idle

theorem step_timers (s : System) : s.step.1.machine.timers =
    (s.executed? .step).elim s.machine.timers s.machine.timersAfter := by
  cases executed : s.executed? .step with
  | none =>
    rw [step_idle executed]
    rfl
  | some op => exact (executed_touches executed).timers

theorem step_source (s : System) : s.step.1.machine.source =
    (s.executed? .step).elim s.machine.source s.machine.sourceAfter := by
  cases executed : s.executed? .step with
  | none =>
    rw [step_idle executed]
    rfl
  | some op => exact (executed_touches executed).source

/-! ## Other turns -/

/-- A load that is granted or a reset that succeeds. -/
def Restarts (s : System) : Turn → Prop
  | .loadProgram program => (s.loadProgram program).2 = .ok ()
  | .loadRom fs path => (s.loadRom fs path).2 = .ok ()
  | .reset => s.reset.2 = .ok ()
  | _ => False

/-- Another turn than a step leaves the random source alone. -/
theorem turn_source (other : turn_ ≠ .step) :
    (s.turn turn_).machine.source = s.machine.source := by
  have loads (s : System) (program : List UInt8) :
      (s.loadProgram program).1.machine.source = s.machine.source := by
    rw [loadProgram]
    cases s.machine.memory.loadRom program <;> rfl
  cases turn_ with
  | step => exact absurd rfl other
  | loadProgram program => exact loads s program
  | loadRom fs path =>
    rw [turn]
    rcases s.loadRom_cases fs path with ⟨same, -⟩ | ⟨program, -, o, left⟩
    · rw [same]
    · rw [left]
      exact loads _ program
  | reset =>
    rw [turn]
    rcases s.reset_cases with ⟨-, machine⟩ | ⟨memory, -, machine⟩ | ⟨f, -, -, machine⟩ <;>
      rw [machine] <;> rfl
  | host action =>
    rw [turn, s.host_hostMoves action]
  | owe debt => rfl

theorem moveKey_timers (s : System) (key : Datum) (down : Bool) :
    (s.moveKey key down).1.machine.timers = s.machine.timers := by
  rw [moveKey]
  cases keyOf key <;> rfl

/-- The host's keys leave the timers alone. -/
theorem host_timers (s : System) (action : HostAction) :
    (∃ elapsed, action = .updateTimers elapsed) ∨
      (s.host action).machine.timers = s.machine.timers := by
  cases action with
  | updateTimers elapsed => exact .inl ⟨elapsed, rfl⟩
  | moveKey key down => exact .inr (s.moveKey_timers key down)
  | setKeys states =>
    right
    rw [host, setKeys]
    cases s.machine.keypad.setKeys states <;> rfl
  | moveHostKey name down =>
    right
    rw [host]
    rcases s.moveHostKey_cases name down with same | ⟨key, moved⟩
    · rw [same]
    · rw [moved, moveKey_timers]

theorem loadProgram_timers (s : System) (program : List UInt8) :
    ((s.loadProgram program).2 = .ok () ∧
      (s.loadProgram program).1.machine.timers = s.machine.timers.reset) ∨
    ((s.loadProgram program).2 ≠ .ok () ∧
      (s.loadProgram program).1.machine.timers = s.machine.timers) := by
  rw [loadProgram]
  cases s.machine.memory.loadRom program with
  | error f => exact .inr ⟨by simp, rfl⟩
  | ok memory => exact .inl ⟨rfl, rfl⟩

/-- Another turn than a step restarts the timers, lets time pass for them, or leaves them alone. -/
theorem turn_timers (other : turn_ ≠ .step) :
    (s.Restarts turn_ ∧ (s.turn turn_).machine.timers = s.machine.timers.reset) ∨
    (∃ elapsed, turn_ = .host (.updateTimers elapsed)) ∨
    (¬ s.Restarts turn_ ∧ (s.turn turn_).machine.timers = s.machine.timers) := by
  cases turn_ with
  | step => exact absurd rfl other
  | loadProgram program => exact (s.loadProgram_timers program).imp_right .inr
  | loadRom fs path =>
    rw [turn, Restarts]
    rcases s.loadRom_cases fs path with ⟨same, e, failed⟩ | ⟨program, answer, o, left⟩
    · rw [same, failed]
      exact .inr (.inr ⟨by simp, rfl⟩)
    · rw [answer, left]
      exact (loadProgram_timers _ program).imp_right .inr
  | reset =>
    rw [turn, Restarts]
    cases start : s.startMemory with
    | ok memory =>
      obtain ⟨done, o, left⟩ := reset_of_ok start
      rw [left]
      exact .inl ⟨done, rfl⟩
    | error f =>
      obtain ⟨failed, o, left⟩ := reset_of_error start
      rw [failed, left]
      exact .inr (.inr ⟨by simp, rfl⟩)
  | host action =>
    rcases s.host_timers action with ⟨elapsed, rfl⟩ | same
    · exact .inr (.inl ⟨elapsed, rfl⟩)
    · exact .inr (.inr ⟨id, same⟩)
  | owe debt => exact .inr (.inr ⟨id, rfl⟩)

/-- What the timers' turn makes of them, but for the note that a tone has ended. -/
theorem updateTimers_eq (s : System) (elapsed : Number) :
    (s.updateTimers elapsed).2 = (s.machine.timers.update elapsed).2 ∧
    (s.updateTimers elapsed).1.machine.timers =
      { (s.machine.timers.update elapsed).1 with
        toneEnded := (s.updateTimers elapsed).1.machine.timers.toneEnded } := by
  rw [updateTimers]
  rcases s.machine.timers.update elapsed with ⟨timers, e | ticks⟩
  · exact ⟨rfl, rfl⟩
  · dsimp only
    split <;> exact ⟨rfl, rfl⟩

end System
end ChipEight
