import ChipEight.Proofs.Broadcast
import ChipEight.Proofs.Layout
/-! # Waiting for a key

A keypad awaits a key only while the program counter stands at the instruction that asked for it,
and keeps one only for that wait (`Machine.Turned.parked`); so a step at such a place leaves
everything where it is until there is a key, and then hands it over.  A wait is announced once, when
it begins (`System.waits_announced`).  `System.waits_park` has both. -/

namespace ChipEight

/-- The word of a wait names its register in its second digit. -/
theorem Denotes.waitKey_x {w : Nat} {x : Reg} (denotes : Denotes w (.waitKey x))
    {op : Operation} : (⟨w, op⟩ : Instruction).x = x := by
  rcases denotes with row | ⟨impossible, -⟩
  · cases row with
    | waitKey word =>
      refine Fin.ext ?_
      simp only [Instruction.x]
      omega
  · cases impossible

namespace Machine

variable {m m' : Machine} {w : Nat} {x : Reg} {key : Key}

/-- The program counter stands at an instruction that waits for a key. -/
def AtWait (m : Machine) (x : Reg) : Prop := ∃ w, m.WordAt w ∧ Denotes w (.waitKey x)

/-- A key is kept only for a wait, and awaited only where the program counter is. -/
structure Parked (m : Machine) : Prop where
  latched : m.keypad.latched ≠ none → m.keypad.state = .awaiting
  awaits : m.keypad.state = .awaiting → ∃ x, m.AtWait x

/-! ## Steps at a wait -/

section
variable (part : ∀ part, m.wiring.has part = true) (small : m.memory.size ≤ 65532)
  (word : m.WordAt w) (denotes : Denotes w (.waitKey x))
include part small word denotes

/-- Without a key the step leaves everything where it is. -/
theorem step_parks (empty : m.keypad.latched = none) :
    m.step = ({ m with keypad := { m.keypad with state := .awaiting }, cycles := m.cycles + 1 },
      .ok ⟨m.registers.pc, ⟨w, .waitKey x⟩, m.registers.pc, true⟩) := by
  obtain ⟨⟨low, -⟩, ⟨-, high⟩, -⟩ := id word
  have mask : m.registers.pc % 65536 = m.registers.pc := by omega
  rw [step_of_word (part .memory) word, (denotes_iff word.lt).mp denotes, execute]
  dsimp only
  rw [perform, withPart, if_pos (part .keypad), Keypad.waitForKey_of_none empty]
  dsimp only [Next.address]
  rw [mask]
  rfl

/-- With a key the step hands it over and goes on. -/
theorem step_delivers (full : m.keypad.latched = some key) :
    m.step = ({ m with
        registers := { m.registers.set x (UInt8.ofNat key.val) with pc := m.registers.pc + 2 }
        keypad := { m.keypad with latched := none, state := .idle }
        cycles := m.cycles + 1 },
      .ok ⟨m.registers.pc, ⟨w, .waitKey x⟩, m.registers.pc + 2, false⟩) := by
  obtain ⟨⟨low, -⟩, ⟨-, high⟩, -⟩ := id word
  have mask : (m.registers.pc + 2) % 65536 = m.registers.pc + 2 := by omega
  rw [step_of_word (part .memory) word, (denotes_iff word.lt).mp denotes, execute]
  dsimp only
  rw [perform, withPart, if_pos (part .keypad), Keypad.waitForKey_of_some full]
  dsimp only [Next.address, instructionSize]
  rw [mask]
  rfl

end

/-! ## Where a keypad awaits -/

/-- Only keypad, program counter and memory matter. -/
theorem Parked.of_same (parked : m.Parked) (keypad : m'.keypad = m.keypad)
    (pc : m'.registers.pc = m.registers.pc) (memory : m'.memory = m.memory) : m'.Parked := by
  obtain ⟨latched, awaits⟩ := parked
  refine ⟨?_, ?_⟩
  · rwa [keypad]
  · rw [keypad]
    intro awaiting
    obtain ⟨x, w, word, denotes⟩ := awaits awaiting
    refine ⟨x, w, ?_, denotes⟩
    rwa [WordAt, pc, memory]

/-- A keypad that neither awaits nor keeps a key. -/
theorem parked_of_idle (idle : m.keypad.state = .idle) (empty : m.keypad.latched = none) :
    m.Parked := by
  refine ⟨fun full => absurd empty full, fun awaiting => ?_⟩
  rw [idle] at awaiting
  cases awaiting

theorem Parked.handled {keypad : Keypad} {timers : Timers} (parked : m.Parked)
    (handled : m.keypad.Handled keypad) : { m with keypad, timers }.Parked := by
  obtain ⟨latched, awaits⟩ := parked
  refine ⟨fun full => ?_, fun awaiting => awaits (handled.state.symm.trans awaiting)⟩
  by_contra idle
  have before : m.keypad.state ≠ .awaiting := fun awaiting => idle (handled.state.trans awaiting)
  rw [handled.latched before] at full
  exact before (latched full)

/-- A step keeps a keypad parked: at a wait it stays or the wait ends, and elsewhere no step concerns
the keypad. -/
theorem Parked.step (part : ∀ part, m.wiring.has part = true) (small : m.memory.size ≤ 65532)
    (parked : m.Parked) : m.step.1.Parked := by
  by_cases wait : ∃ x, m.AtWait x
  · obtain ⟨x, w, word, denotes⟩ := wait
    cases latched : m.keypad.latched with
    | none =>
      rw [step_parks part small word denotes latched]
      exact ⟨fun _ => rfl, fun _ => ⟨x, w, word, denotes⟩⟩
    | some key =>
      rw [step_delivers part small word denotes latched]
      exact parked_of_idle rfl rfl
  have idle : m.keypad.state = .idle := by
    cases state : m.keypad.state with
    | idle => rfl
    | awaiting => exact absurd (parked.awaits state) wait
  have empty : m.keypad.latched = none := by
    by_contra full
    exact wait (parked.awaits (parked.latched full))
  rcases m.step_cases with frame | ⟨w, after, n, word, outcome, machine⟩
  · rw [frame]
    exact parked.of_same rfl rfl rfl
  rw [machine]
  generalize operation : Operation.ofWord w = op at outcome
  cases outcome with
  | values frame _ =>
    rw [frame]
    exact parked_of_idle idle empty
  | park _ | key _ => exact absurd ⟨_, w, word, (denotes_iff word.lt).mpr operation⟩ wait
  | _ => exact parked_of_idle idle empty

variable {config : MachineConfig} {p p' : List UInt8}

/-- **Every turn keeps a keypad parked.** -/
theorem Turned.parked (small : config.memorySize ≤ 65532) (configured : Configured config m p)
    (parked : m.Parked) (turned : m.Turned p m' p') : m'.Parked := by
  cases turned with
  | host frame handled =>
    rw [frame]
    exact parked.handled handled
  | step =>
    have size := configured.size
    exact parked.step configured.parts (by omega)
  | loaded _ | reset _ | reloaded _ => exact parked_of_idle rfl rfl
  | broken some_ failed =>
    obtain ⟨memory, loaded⟩ := configured.reloads some_
    rw [loaded] at failed
    cases failed

end Machine

namespace System

variable {s : System} {config : MachineConfig}

theorem Reachable.parked (small : config.memorySize ≤ 65532) (reach : Reachable config s) :
    s.machine.Parked := by
  refine reach.keeps (fun fresh => ?_) (Machine.Turned.parked small)
  exact Machine.parked_of_idle (congrArg Keypad.state fresh.keypad)
    (congrArg Keypad.latched fresh.keypad)

/-- A system whose wait for a key is parked at the instruction that asked for the key. -/
structure Parks (s : System) : Prop where
  latched : s.machine.keypad.latched ≠ none → s.machine.keypad.state = .awaiting
  awaits : s.machine.keypad.state = .awaiting →
    ∃ w x, s.machine.WordAt w ∧ Denotes w (.waitKey x)
  /-- Without a key a step changes nothing but the counters of cycles. -/
  stays : s.machine.keypad.state = .awaiting → s.machine.keypad.latched = none →
    ∃ t r, s.step = (t, .ok r) ∧ r.waiting = true ∧
      t = { s with
        machine := { s.machine with cycles := s.machine.cycles + 1 }
        cycleCount := s.cycleCount + 1
        observers := t.observers }
  /-- With a key the next step hands it over, ends the wait and goes on. -/
  ends : ∀ {w x key}, s.machine.keypad.state = .awaiting →
    s.machine.keypad.latched = some key → s.machine.WordAt w → Denotes w (.waitKey x) →
    ∃ t r, s.step = (t, .ok r) ∧ r.waiting = false ∧
      t = { s with
        machine := { s.machine with
          registers := { s.machine.registers.set x (UInt8.ofNat key.val) with
            pc := s.machine.registers.pc + 2 }
          keypad := { s.machine.keypad with latched := none, state := .idle }
          cycles := s.machine.cycles + 1 }
        cycleCount := s.cycleCount + 1
        observers := t.observers }

theorem parks (configured : s.machine.Configured config s.program)
    (small : config.memorySize ≤ 65532) (parked : s.machine.Parked) : s.Parks := by
  have size := configured.size
  have fits : s.machine.memory.size ≤ 65532 := by omega
  refine ⟨parked.latched, ?_, ?_, ?_⟩
  · intro awaiting
    obtain ⟨x, w, word, denotes⟩ := parked.awaits awaiting
    exact ⟨w, x, word, denotes⟩
  · intro awaiting empty
    obtain ⟨x, w, word, denotes⟩ := parked.awaits awaiting
    have stepped := Machine.step_parks configured.parts fits word denotes empty
    have same : { s.machine.keypad with state := .awaiting } = s.machine.keypad := by
      rw [← awaiting]
    rw [same] at stepped
    rw [System.step, stepped]
    exact ⟨_, _, rfl, rfl, rfl⟩
  · intro w x key awaiting full word denotes
    rw [System.step, Machine.step_delivers configured.parts fits word denotes full]
    exact ⟨_, _, rfl, rfl, rfl⟩

/-! ## Announcements -/

/-- A wait begins between one system and the next. -/
def Begins (s t : System) : Prop :=
  s.machine.keypad.state = .idle ∧ t.machine.keypad.state = .awaiting

instance (s t : System) : Decidable (Begins s t) := inferInstanceAs (Decidable (_ ∧ _))

/-- The systems in which a turn begins a wait. -/
def waitsIn (s : System) : List Turn → List System
  | [] => []
  | turn_ :: rest =>
    (if Begins s (s.turn turn_) then [s] else []) ++ (s.turn turn_).waitsIn rest

/-- The payload names the register of the instruction that waits. -/
def NamesWait (s : System) (payload : Datum) : Prop :=
  ∃ w x, s.machine.WordAt w ∧ Denotes w (.waitKey x) ∧
    payload = .record [("register", .int x.val)]

theorem not_begins {t : System} (same : t.machine.keypad.state = s.machine.keypad.state ∨
    t.machine.keypad.state = .idle) : ¬ Begins s t := by
  rintro ⟨idle, awaiting⟩
  rcases same with same | same <;> rw [awaiting] at same
  · rw [idle] at same
    cases same
  · cases same

theorem fired_of_running (before after : Machine) {r : StepReport} (running : r.waiting = false) :
    fired .keyWait (Observers.effectNotices before after r) = [] := by
  rw [Observers.effectNotices]
  cases r.instruction.operation with
  | clear | draw _ _ _ => rfl
  | _ =>
    simp only [running, Bool.false_and, Bool.false_eq_true, if_false]
    rfl

/-- Only a step announces a wait. -/
theorem fired_of_other {turn_ : Turn} (other : turn_ ≠ .step) :
    fired .keyWait (s.notices turn_) = [] := by
  refine fired_eq_nil fun mem => ?_
  have mem := s.announced_notices turn_ mem
  cases turn_ with
  | step => exact other rfl
  | host action => cases action <;> simp [Turn.announces] at mem
  | _ => simp [Turn.announces] at mem

/-- Only a step begins a wait. -/
theorem not_begins_of_other {turn_ : Turn} (other : turn_ ≠ .step) :
    ¬ Begins s (s.turn turn_) := by
  refine not_begins ?_
  cases turn_ with
  | step => exact absurd rfl other
  | loadProgram program =>
    rw [turn, loadProgram]
    cases s.machine.memory.loadRom program with
    | error f => exact .inl rfl
    | ok memory => exact .inr rfl
  | loadRom fs path =>
    rw [turn, loadRom]
    cases fs.read path with
    | error e => exact .inl rfl
    | ok content =>
      dsimp only
      rw [loadProgram]
      cases s.machine.memory.loadRom content.toList with
      | error f => exact .inl rfl
      | ok memory => exact .inr rfl
  | reset =>
    rw [turn]
    rcases s.reset_cases with ⟨-, machine⟩ | ⟨memory, -, machine⟩ | ⟨f, -, -, machine⟩ <;>
      rw [machine]
    · exact .inr rfl
    · exact .inr rfl
    · exact .inl rfl
  | host action => exact .inl (s.host_handled action).state
  | owe debt => exact .inl rfl

theorem step_announces (s : System) :
    List.Forall₂ NamesWait (if Begins s s.step.1 then [s] else [])
      (fired .keyWait s.stepNotices) := by
  rw [stepNotices]
  rcases stepped : s.machine.step with ⟨m, e | r⟩
  · have same : s.step.1.machine.keypad.state = s.machine.keypad.state := by
      rw [step_machine, stepped, Machine.step_fails_values stepped]
    rw [if_neg (not_begins (.inl same))]
    cases e <;> exact .nil
  have machine : s.step.1.machine = m := by rw [step_machine, stepped]
  have told : fired .keyWait (.lines s.machine.stepLines ::
      Observers.stepNotices s.machine m s.cycleCount r) =
        fired .keyWait (Observers.effectNotices s.machine m r) :=
    Observers.fired_stepNotices (by decide) (by decide) ..
  refine told.symm ▸ ?_
  obtain ⟨w, after, n, word, outcome, goes, report⟩ := Machine.step_outcome stepped
  -- whatever does not park tells nothing, and leaves the keypad or ends a wait
  have runs (running : (n == .park) = false) (same : after.keypad.state =
      s.machine.keypad.state ∨ after.keypad.state = .idle) :
      List.Forall₂ NamesWait (if Begins s s.step.1 then [s] else [])
        (fired .keyWait (Observers.effectNotices s.machine m r)) := by
    have quiet : ¬ Begins s s.step.1 := by
      refine not_begins ?_
      rw [machine, goes]
      exact same
    have waiting : r.waiting = false := by rw [report, running]
    rw [if_neg quiet, fired_of_running _ _ waiting]
    exact .nil
  generalize operation : Operation.ofWord w = op at outcome report
  cases outcome with
  | @park x empty =>
    have denotes := (denotes_iff word.lt).mpr operation
    have register : (⟨w, .waitKey x⟩ : Instruction).x = x := denotes.waitKey_x
    have after : s.step.1.machine.keypad.state = .awaiting := by rw [machine, goes]; rfl
    rw [report, Observers.effectNotices]
    cases state : s.machine.keypad.state with
    | idle =>
      rw [if_pos ⟨state, after⟩, register]
      exact .cons ⟨w, x, word, denotes, rfl⟩ .nil
    | awaiting =>
      have ongoing : ¬ Begins s s.step.1 := not_begins (.inl (after.trans state.symm))
      rw [if_neg ongoing]
      exact .nil
  | key full => exact runs rfl (.inr rfl)
  | values frame next =>
    have kept : after.keypad.state = s.machine.keypad.state := by rw [frame]
    rcases next with rfl | rfl <;> exact runs rfl (.inl kept)
  | _ => exact runs rfl (.inl rfl)

/-- **Each wait is announced once**, in the order in which they begin. -/
theorem waits_announced (s : System) (turns : List Turn) :
    List.Forall₂ NamesWait (s.waitsIn turns) (fired .keyWait (s.noticesOf turns)) := by
  induction turns generalizing s with
  | nil => exact .nil
  | cons turn_ turns ih =>
    rw [waitsIn, noticesOf, fired_append]
    refine List.rel_append ?_ (ih _)
    by_cases step : turn_ = .step
    · subst step
      exact s.step_announces
    · rw [if_neg (not_begins_of_other step), fired_of_other step]
      exact .nil

/-- A program (`LD V3, K`) that waits for two steps until its key comes. -/
def oneWait : List Asked := [
  ({}, .loadProgram [0xF3, 0x0A]), ({}, .step), ({}, .step),
  ({}, .pressKey (.number (.int 7))), ({}, .step)]

end System
end ChipEight
