import ChipEight.Proofs.Broadcast
import ChipEight.Proofs.Executions
/-! # Counts and warnings

A system keeps three counts: its own of the steps, its processor's, and that of the words that were
no instructions.  From a start on they are the number of the steps that have returned, and of those
among them whose report carries an error (`System.run_accounted`).  Each of the latter gives one
warning, fires one event, and does nothing but pass over its word (`System.PassesOver`). -/

namespace ChipEight

def Operation.isUnknown : Operation → Bool
  | .unknown _ => true
  | _ => false

/-- A report carries an error where its word was unknown, and only there. -/
theorem StepReport.isSome_fault? (r : StepReport) :
    r.fault?.isSome = r.instruction.operation.isUnknown := by
  rw [StepReport.fault?]
  cases r.instruction.operation <;> rfl

theorem StepReport.fault?_of_unknown {r : StepReport}
    (unknown : r.instruction.operation.isUnknown = true) :
    r.fault? = some (.unknownInstruction r.instruction.opcode r.address) := by
  rw [StepReport.fault?]
  cases operation : r.instruction.operation with
  | unknown w => rfl
  | _ =>
    rw [operation] at unknown
    cases unknown

theorem Encodes.isKnown {w : Nat} {op : Operation} (row : Encodes w op) : op.isUnknown = false := by
  cases row <;> rfl

/-- The words that are no instructions are those for which the table has no row. -/
theorem Operation.isUnknown_ofWord {w : Nat} (hw : w < 65536) :
    (Operation.ofWord w).isUnknown = true ↔ Denotes w (.unknown w) := by
  rw [denotes_iff hw]
  constructor
  · intro unknown
    rcases Operation.ofWord_encodes hw with row | same
    · rw [row.isKnown] at unknown
      cases unknown
    · exact same
  · intro same
    rw [same, isUnknown]

namespace Machine

variable {m s : Machine} {address : Int} {op : Operation} {n : Next}

/-- What an operation that succeeds does to the counts. -/
structure Counts (m : Machine) (op : Operation) (s : Machine) : Prop where
  cycles : s.cycles = m.cycles
  unknown : s.unknownCount = m.unknownCount + op.isUnknown.toNat

theorem storeBlock_counts {data : List UInt8} (known : op.isUnknown = false)
    (h : m.storeBlock data = (s, .ok n)) : m.Counts op s := by
  rw [storeBlock] at h
  split at h <;> cases h
  exact ⟨rfl, by rw [known]; rfl⟩

theorem drawRows_counts {x y : Reg} {rows : Nat} (h : m.drawRows x y rows = (s, .ok n)) :
    m.Counts (.draw x y rows) s := by
  obtain ⟨_, _, _, -, -, rfl, -⟩ := drawRows_returns h
  exact ⟨rfl, rfl⟩

/-- **Only unknown words are counted by an operation.** -/
theorem perform_counts (h : m.perform address op = (s, .ok n)) : m.Counts op s := by
  cases op with
  | ret =>
    rw [perform, Registers.pop] at h
    cases stack : m.registers.stack <;> rw [stack] at h <;> cases h
    exact ⟨rfl, rfl⟩
  | call target =>
    rw [perform] at h
    split at h <;> cases h
    exact ⟨rfl, rfl⟩
  | draw x y rows => exact drawRows_counts h
  | digits x | store x =>
    rw [perform] at h
    exact storeBlock_counts rfl (withPart_ok h)
  | waitKey x =>
    rw [perform] at h
    have waited := withPart_ok h
    split at waited <;> cases waited <;> exact ⟨rfl, rfl⟩
  | fetch x =>
    rw [perform] at h
    rcases fetched : fetchRegs m.memory m.registers (regsThrough x) with ⟨r, result⟩
    have loaded := withPart_ok h
    rw [fetched] at loaded
    cases loaded
    exact ⟨rfl, rfl⟩
  | clear | skipPressed x | skipReleased x | readDelay x | setDelay x | setSound x | glyph x =>
    rw [perform] at h
    cases withPart_ok h
    exact ⟨rfl, rfl⟩
  | _ =>
    cases h
    exact ⟨rfl, rfl⟩

/-- **A step that returns is counted**, and once more where its report carries an error. -/
theorem step_counts {r : StepReport} (h : m.step = (s, .ok r)) :
    s.cycles = m.cycles + 1 ∧ s.unknownCount = m.unknownCount + r.fault?.isSome.toNat := by
  obtain ⟨part, w, word⟩ := wordAt_of_step h
  rw [step_of_word part word, execute] at h
  rcases performed : m.perform m.registers.pc (Operation.ofWord w) with ⟨after, e | n⟩ <;>
    rw [performed] at h <;> cases h
  obtain ⟨cycles, unknown⟩ := perform_counts performed
  refine ⟨congrArg (· + 1) cycles, ?_⟩
  rw [StepReport.isSome_fault?]
  exact unknown

/-- What a step over an unknown word does, and what it reports. -/
theorem step_unknown {r : StepReport} {w : Nat} (h : m.step = (s, .ok r)) (word : m.WordAt w)
    (unknown : Operation.ofWord w = .unknown w) :
    s = { m with
      registers := { m.registers with pc := (m.registers.pc + 2) % 65536 }
      cycles := m.cycles + 1, unknownCount := m.unknownCount + 1 } ∧
    r = ⟨m.registers.pc, ⟨w, .unknown w⟩, (m.registers.pc + 2) % 65536, false⟩ := by
  have part := (wordAt_of_step h).1
  rw [step_of_word part word, unknown] at h
  cases h
  exact ⟨rfl, rfl⟩

end Machine

/-! ## Warnings among notices -/

/-- The fault and the context of a report that is not fatal. -/
def Notice.warning? : Notice → Option (Fault × Datum)
  | .report fault _ context => if fault.fatal then none else some (fault, context)
  | _ => none

/-- The warnings among notices, in their order. -/
def warnings (notices : List Notice) : List (Fault × Datum) := notices.filterMap Notice.warning?

theorem deaf_warning? : Deaf Notice.warning? := by
  intro notice plain
  cases notice with
  | report fault raised context => exact if_pos plain
  | _ => rfl

theorem deaf_unknown : Deaf (Notice.payload? .unknownInstruction) := by
  intro notice plain
  cases notice with
  | event type source payload => exact if_neg plain
  | _ => rfl

namespace Execution

variable {e : Execution}

/-- The report carries an error. -/
def unknown (e : Execution) : Bool := e.report.fault?.isSome

/-- The warning that a step gives if its report carries an error. -/
def warning (e : Execution) : Fault × Datum :=
  (.unknownInstruction e.report.instruction.opcode e.report.address,
    .record [("cycle", .int e.before.cycleCount)])

/-- The payload of the event that such a step fires. -/
def payload (e : Execution) : Datum :=
  .record [("opcode", .int e.report.instruction.opcode), ("address", .int e.report.address)]

theorem unknownNotices_of_unknown (unknown : e.unknown = true) :
    Observers.unknownNotices e.report e.before.cycleCount =
      [.report e.warning.1 false e.warning.2, .event .unknownInstruction "cpu" e.payload] := by
  rw [Execution.unknown, StepReport.isSome_fault?] at unknown
  rw [Observers.unknownNotices, StepReport.fault?_of_unknown unknown]
  rfl

theorem unknownNotices_of_known (known : ¬ e.unknown = true) :
    Observers.unknownNotices e.report e.before.cycleCount = [] := by
  rw [Execution.unknown, Option.not_isSome_iff_eq_none] at known
  rw [Observers.unknownNotices, known]

theorem warnings_notices (e : Execution) :
    warnings e.notices = if e.unknown then [e.warning] else [] := by
  rw [warnings, notices, Observers.filterMap_stepNotices deaf_warning?]
  split
  · rw [unknownNotices_of_unknown ‹_›]
    rfl
  · rw [unknownNotices_of_known ‹_›]
    rfl

theorem fired_notices (e : Execution) :
    fired .unknownInstruction e.notices = if e.unknown then [e.payload] else [] := by
  rw [fired, notices, Observers.filterMap_stepNotices deaf_unknown]
  split
  · rw [unknownNotices_of_unknown ‹_›]
    rfl
  · rw [unknownNotices_of_known ‹_›]
    rfl

end Execution

namespace System

variable {s t : System} {turn_ : Turn} {turns : List Turn}

/-- **One warning for each step whose report carries an error**, in the order of the steps. -/
theorem warnings_noticesOf (s : System) (turns : List Turn) : warnings (s.noticesOf turns) =
    ((s.executions turns).filter Execution.unknown).map Execution.warning := by
  rw [warnings, filterMap_noticesOf deaf_warning?, ← flatMap_guarded]
  congr 1
  funext e
  exact e.warnings_notices

/-- **One event for each step whose report carries an error**, in the order of the steps. -/
theorem fired_noticesOf (s : System) (turns : List Turn) :
    fired .unknownInstruction (s.noticesOf turns) =
      ((s.executions turns).filter Execution.unknown).map Execution.payload := by
  rw [fired, filterMap_noticesOf deaf_unknown, ← flatMap_guarded]
  congr 1
  funext e
  exact e.fired_notices

/-! ## Unknown words -/

/-- A step over an unknown word: only the program counter and the counts have changed.  There is one
report, a warning, and after it one event; whoever listens hears of the instruction, and a trace
gets its snapshot, as after every step. -/
structure PassesOver (e : Execution) (w : Nat) : Prop where
  word : e.before.machine.WordAt w
  unknown : Denotes w (.unknown w)
  report : e.report = ⟨e.before.pc, ⟨w, .unknown w⟩, (e.before.pc + 2) % 65536, false⟩
  machine : e.after.machine = { e.before.machine with
    registers := { e.before.machine.registers with pc := (e.before.pc + 2) % 65536 }
    cycles := e.before.machine.cycles + 1
    unknownCount := e.before.machine.unknownCount + 1 }
  system : e.after = { e.before with
    machine := e.after.machine
    cycleCount := e.before.cycleCount + 1
    observers := e.after.observers }
  told : ∃ o, e.before.observers.ReportedOnce
      (Observers.faultRecord (.unknownInstruction w e.before.pc) false
        [("cycle", .int e.before.cycleCount)]) o ∧
    e.after.observers = o.hearAll [
      .event .unknownInstruction "cpu" (.record [("opcode", .int w), ("address", .int e.before.pc)]),
      .instruction (.record [("address", .int e.before.pc), ("opcode", .int w)]),
      .snapshot (Observers.snapshot e.after.machine (e.before.cycleCount + 1) e.report)]
  /-- Besides the instruction, one event is fired. -/
  fired : ∃ log, e.before.observers.Fires log e.after.observers ∧ besides log =
    [⟨.unknownInstruction, "cpu",
      .record [("opcode", .int w), ("address", .int e.before.pc)]⟩]

/-- **The report of a step carries an error just where the word is unknown.** -/
theorem unknown_iff {e : Execution} (stepped : e.before.step = (e.after, .ok e.report)) :
    e.unknown = true ↔ ∃ w, e.before.machine.WordAt w ∧ Denotes w (.unknown w) := by
  obtain ⟨w, after, n, word, -, -, report⟩ := Machine.step_outcome (machine_step_of_ok stepped)
  rw [Execution.unknown, StepReport.isSome_fault?, report, Operation.isUnknown_ofWord word.lt]
  constructor
  · exact fun unknown => ⟨w, word, unknown⟩
  · rintro ⟨v, other, unknown⟩
    rwa [word.unique other]

theorem step_of_ok {m : Machine} {r : StepReport} (h : s.machine.step = (m, .ok r)) :
    s.step.1 = { s with
      machine := m, cycleCount := s.cycleCount + 1, observers := s.step.1.observers } := by
  rw [step, h]

/-- **A step whose report carries an error passes over its word.** -/
theorem passesOver {e : Execution} (stepped : e.before.step = (e.after, .ok e.report))
    (unknown : e.unknown = true) : ∃ w, PassesOver e w := by
  obtain ⟨w, word, denoted⟩ := (unknown_iff stepped).mp unknown
  have ran := machine_step_of_ok stepped
  obtain ⟨machine, report⟩ := Machine.step_unknown ran word ((denotes_iff word.lt).mp denoted)
  have effect : Observers.effectNotices e.before.machine e.after.machine e.report = [] := by
    rw [report]
    rfl
  have tone : Observers.toneNotices e.before.machine e.after.machine = [] := by
    rw [Observers.toneNotices, machine]
    simp
  obtain ⟨quiet, debug, journal⟩ :=
    e.before.machine.journalStep_quiet e.before.observers.journal
  have once : e.before.observers.ReportedOnce
      (Observers.faultRecord (.unknownInstruction w e.before.pc) false
        [("cycle", .int e.before.cycleCount)]) _ :=
    e.before.observers.fault_once debug
  have notices := notices_of_step stepped
  rw [Observers.stepNotices, effect, tone, Execution.unknownNotices_of_unknown unknown,
    Execution.warning, Execution.payload, report] at notices
  have after : (e.before.turn .step).observers = e.after.observers := rfl
  refine ⟨w, word, denoted, report, machine, step_of_ok ran, ⟨_, once, ?_⟩, ?_⟩
  · rw [← journal, Machine.journalStep_eq, report, ← after, turn_observers, notices]
    rfl
  · obtain ⟨log, fires, told⟩ := e.before.turn_fires .step
    rw [after] at fires
    refine ⟨log, fires, told.trans ?_⟩
    rw [notices]
    rfl

/-! ## Requests that go on -/

theorem forall_mem_stepTurns {P : Turn → Prop} (step : P .step) (n : Nat) (s : System)
    {last : List Turn} (rest : ∀ turn_ ∈ last, P turn_) : ∀ turn_ ∈ stepTurns n s last, P turn_ := by
  induction n generalizing s with
  | zero => exact rest
  | succ n ih =>
    rw [stepTurns]
    refine List.forall_mem_cons.mpr ⟨step, ?_⟩
    rcases s.step with ⟨t, f | r⟩
    · simp
    · exact ih t

theorem forall_mem_cycleTurns {P : Turn → Prop} (step : P .step)
    (time : ∀ elapsed, P (.host (.updateTimers elapsed))) (n : Nat) (s : System) :
    ∀ turn_ ∈ cycleTurns n s, P turn_ := by
  induction n generalizing s with
  | zero => simp [cycleTurns]
  | succ n ih =>
    rw [cycleTurns]
    refine List.forall_mem_cons.mpr ⟨step, ?_⟩
    rcases s.step with ⟨t, f | r⟩
    · simp
    dsimp only
    cases t.stepTime with
    | error e => simp
    | ok elapsed =>
      refine List.forall_mem_cons.mpr ⟨time elapsed, ?_⟩
      rcases t.updateTimers elapsed with ⟨u, e | ticks⟩
      · simp
      · exact ih u

/-- Neither a load nor a reset. -/
def RequestGoesOn : SystemRequest → Prop
  | .loadProgram _ | .loadRom _ | .reset => False
  | _ => True

theorem goesOn_turns {q : SystemRequest} (goesOn : RequestGoesOn q) (fs : Files) (s : System) :
    ∀ turn_ ∈ s.turns fs q, turn_.GoesOn := by
  cases q with
  | loadProgram program | loadRom path | reset => exact goesOn.elim
  | runFor elapsed =>
    rw [turns]
    cases s.owe elapsed with
    | error e => simp
    | ok debt =>
      dsimp only
      cases Number.truncate? debt with
      | none => simp [Turn.GoesOn]
      | some cycles =>
        exact List.forall_mem_cons.mpr
          ⟨trivial, forall_mem_stepTurns trivial cycles.toNat _ (by simp [Turn.GoesOn])⟩
  | runCycles cycles => exact forall_mem_cycleTurns trivial (fun _ => trivial) cycles.toNat s
  | _ => simp [turns, Turn.GoesOn]

theorem goesOn_turnsOf {asked : List Asked} (goesOn : ∀ request ∈ asked, RequestGoesOn request.2) :
    ∀ turn_ ∈ s.turnsOf asked, turn_.GoesOn := by
  induction asked generalizing s with
  | nil => simp [turnsOf]
  | cons request rest ih =>
    obtain ⟨fs, q⟩ := request
    rw [List.forall_mem_cons] at goesOn
    intro turn_ mem
    rcases List.mem_append.mp mem with first | later
    · exact goesOn_turns goesOn.1 fs s turn_ first
    · exact ih goesOn.2 turn_ later

/-- Where neither a load nor a reset is asked for, a run is unbroken. -/
theorem unbroken_turnsOf {asked : List Asked}
    (goesOn : ∀ request ∈ asked, RequestGoesOn request.2) :
    s.Unbroken (s.turnsOf asked) :=
  unbroken_of_goesOn (goesOn_turnsOf goesOn)

/-! ## Runs -/

/-- A system that has just been put together, loaded or reset. -/
def Begun (s : System) : Prop :=
  (∃ (config : MachineConfig) (o : Observers), (config.boot o).2 = .ok s) ∨
    ∃ (before : System) (turn_ : Turn), before.Restarts turn_ ∧ s = before.turn turn_

/-- In a system that can be reached a reset always succeeds. -/
theorem Reachable.resets {config : MachineConfig} (reach : Reachable config s) :
    s.Restarts .reset := by
  obtain ⟨memory, start⟩ : ∃ memory, s.startMemory = .ok memory := by
    rw [startMemory]
    split
    · exact ⟨_, rfl⟩
    · rename_i some_
      exact reach.configured.reloads fun none_ => some_ (List.isEmpty_iff.mpr none_)
  exact (reset_of_ok start).1

/-- A system that has counted so many steps, and so many unknown words among them. -/
structure Counted (s : System) (n k : Nat) : Prop where
  steps : s.cycleCount = n
  cycles : s.machine.cycles = n
  unknown : s.machine.unknownCount = k

theorem SameCounts.counted {n k : Nat} (same : s.SameCounts t) (counted : s.Counted n k) :
    t.Counted n k :=
  ⟨same.steps.trans counted.steps, same.cycles.trans counted.cycles,
    same.unknown.trans counted.unknown⟩

theorem boot_counted {config : MachineConfig} {o : Observers} (booted : (config.boot o).2 = .ok s) :
    s.Counted 0 0 := by
  obtain ⟨_, _, _, _, -, -, -, -, rfl⟩ := boot_cases booted
  exact ⟨rfl, rfl, rfl⟩

theorem loadProgram_counted {program : List UInt8} (granted : (s.loadProgram program).2 = .ok ()) :
    (s.loadProgram program).1.Counted 0 0 := by
  cases loaded : s.machine.memory.loadRom program with
  | error f =>
    rw [(loadProgram_of_error loaded).1] at granted
    cases granted
  | ok memory =>
    obtain ⟨-, o, left⟩ := loadProgram_of_ok loaded
    rw [left]
    exact ⟨rfl, rfl, rfl⟩

theorem restart_counted (restarts : s.Restarts turn_) : (s.turn turn_).Counted 0 0 := by
  cases turn_ with
  | loadProgram program => exact loadProgram_counted restarts
  | loadRom fs path =>
    rw [Restarts] at restarts
    rw [turn]
    rcases s.loadRom_cases fs path with ⟨-, e, failed⟩ | ⟨program, answer, alike⟩
    · rw [failed] at restarts
      cases restarts
    · rw [answer] at restarts
      exact alike.sameCounts.counted (loadProgram_counted restarts)
  | reset =>
    rw [Restarts] at restarts
    rw [turn]
    cases start : s.startMemory with
    | ok memory =>
      obtain ⟨-, o, left⟩ := reset_of_ok start
      rw [left]
      exact ⟨rfl, rfl, rfl⟩
    | error f =>
      rw [(reset_of_error start).1] at restarts
      cases restarts
  | _ => exact restarts.elim

theorem Begun.counted (begun : s.Begun) : s.Counted 0 0 := by
  rcases begun with ⟨config, o, booted⟩ | ⟨before, turn_, restarts, rfl⟩
  · exact boot_counted booted
  · exact restart_counted restarts

/-- A step that returns counts, once more if its report carries an error. -/
theorem execution_counted {e : Execution} {n k : Nat}
    (stepped : e.before.step = (e.after, .ok e.report)) (counted : e.before.Counted n k) :
    e.after.Counted (n + 1) (k + e.unknown.toNat) := by
  obtain ⟨-, -, -, -, steps⟩ := step_report stepped
  obtain ⟨cycles, unknown⟩ := Machine.step_counts (machine_step_of_ok stepped)
  exact ⟨by rw [steps, counted.steps], by rw [cycles, counted.cycles],
    by rw [unknown, counted.unknown, Execution.unknown]⟩

/-- **The counts go up with the steps that return**, and with nothing else. -/
theorem turns_counted {n k : Nat} (counted : s.Counted n k) (unbroken : s.Unbroken turns) :
    (turns.foldl turn s).Counted (n + (s.executions turns).length)
      (k + (s.executions turns).countP Execution.unknown) := by
  induction turns generalizing s n k with
  | nil => exact counted
  | cons turn_ turns ih =>
    rw [List.foldl_cons, executions]
    cases executed : s.execution? turn_ with
    | none => exact ih ((sameCounts_turn executed unbroken.1).counted counted) unbroken.2
    | some e =>
      obtain ⟨rfl, rfl, stepped⟩ := execution?_eq_some.mp executed
      have later := ih (s := e.after) (execution_counted stepped counted) unbroken.2
      have steps (length : Nat) : n + (length + 1) = n + 1 + length := by omega
      have strays (count : Nat) :
          k + (count + if e.unknown then 1 else 0) = k + e.unknown.toNat + count := by
        cases e.unknown with
        | false => rfl
        | true => simp only [if_true, Bool.toNat_true]; omega
      rw [Option.toList_some, List.singleton_append, List.length_cons, List.countP_cons, steps,
        strays]
      exact later

/-- The accounts of a run.  All counts are those of the steps that have returned, and the errors
among them are the unknown words.  Each of these was passed over, which gave one warning and fired
one event; there were no others. -/
structure Accounts (s : System) (turns : List Turn) (t : System) : Prop where
  steps : t.cycleCount = (s.executions turns).length
  cycles : t.machine.cycles = (s.executions turns).length
  unknown : t.machine.unknownCount = (s.executions turns).countP Execution.unknown
  errors : ∀ e ∈ s.executions turns, e.unknown = true ↔
    ∃ w, e.before.machine.WordAt w ∧ Denotes w (.unknown w)
  passed : ∀ e ∈ s.executions turns, e.unknown = true → ∃ w, PassesOver e w
  warned : warnings (s.noticesOf turns) =
    ((s.executions turns).filter Execution.unknown).map Execution.warning
  fired : ∃ log, s.observers.Fires log t.observers ∧ payloads .unknownInstruction log =
    ((s.executions turns).filter Execution.unknown).map Execution.payload

theorem turns_accounted (begun : s.Begun) (unbroken : s.Unbroken turns) :
    s.Accounts turns (turns.foldl turn s) := by
  obtain ⟨steps, cycles, unknown⟩ := turns_counted begun.counted unbroken
  rw [Nat.zero_add] at steps cycles unknown
  obtain ⟨log, fires, told⟩ := s.turns_fire turns
  refine ⟨steps, cycles, unknown, fun e mem => unknown_iff (mem_executions mem),
    fun e mem unknown => passesOver (mem_executions mem) unknown, s.warnings_noticesOf turns,
    log, fires, ?_⟩
  rw [payloads_eq_fired told (by decide), s.fired_noticesOf turns]

/-- A word that is no instruction, and a return from nowhere. -/
def astray : List UInt8 := [0xFF, 0xFF, 0x00, 0xEE]

/-- A step, a key, and a run that fails at its first step. -/
def tries : List Asked := [({}, .step), ({}, .pressKey (.number (.int 3))),
  ({}, .runFor (.float 0.5))]

end System
end ChipEight
