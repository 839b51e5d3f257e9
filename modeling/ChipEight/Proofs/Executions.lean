import ChipEight.Proofs.Timekeeping
/-! # Steps that return

The steps of a run that return, each with the system before it and its report
(`System.executions`).  A report names the word that stood at the program counter
(`System.step_report`).  Only such a step takes a snapshot or notices an unknown word; all else that
is told is plain (`System.plain_notices`), and so is most of what the step itself tells.  Whoever
does not listen to plain notices hears the steps, one after the other
(`System.filterMap_noticesOf`).  Only such a step is counted, too (`System.sameCounts_turn`). -/

namespace ChipEight

/-- Neither a snapshot nor a warning nor the event of an unknown word; what is reported is fatal. -/
def Notice.Plain : Notice → Prop
  | .lines _ | .instruction _ => True
  | .event type _ _ => type ≠ .unknownInstruction
  | .report fault _ _ => fault.fatal = true
  | .snapshot _ => False

theorem flatMap_guarded {α β : Type} (guard : α → Bool) (f : α → β) (xs : List α) :
    xs.flatMap (fun x => if guard x then [f x] else []) = (xs.filter guard).map f := by
  induction xs with
  | nil => rfl
  | cons x xs ih =>
    rw [List.flatMap_cons, ih, List.filter_cons]
    split <;> rfl

/-- Whoever does not listen to plain notices. -/
def Deaf {α : Type} (hears : Notice → Option α) : Prop :=
  ∀ notice : Notice, notice.Plain → hears notice = none

theorem Deaf.filterMap {α : Type} {hears : Notice → Option α} {notices : List Notice}
    (deaf : Deaf hears) (plain : ∀ notice ∈ notices, notice.Plain) :
    notices.filterMap hears = [] :=
  List.filterMap_eq_nil_iff.mpr fun notice mem => deaf notice (plain notice mem)

namespace Observers

theorem plain_effectNotices (before after : Machine) (r : StepReport) :
    ∀ notice ∈ effectNotices before after r, notice.Plain := by
  rw [effectNotices]
  split
  · simp [Notice.Plain]
  · simp [Notice.Plain]
  · split <;> simp [Notice.Plain]

theorem plain_toneNotices (before after : Machine) :
    ∀ notice ∈ toneNotices before after, notice.Plain := by
  rw [toneNotices]
  split <;> simp [Notice.Plain]

/-- Besides its snapshot a step that returns has only an unknown word to tell of. -/
theorem filterMap_stepNotices {α : Type} {hears : Notice → Option α} (deaf : Deaf hears)
    (before after : Machine) (cycle : Nat) (r : StepReport) :
    (stepNotices before after cycle r).filterMap hears =
      (unknownNotices r cycle).filterMap hears ++
        (hears (.snapshot (snapshot after (cycle + 1) r))).toList := by
  have heard : hears (.instruction (.record
      [("address", .int r.address), ("opcode", .int r.instruction.opcode)])) = none :=
    deaf _ trivial
  rw [stepNotices, List.filterMap_append, List.filterMap_append, List.filterMap_append,
    List.filterMap_cons_none heard, deaf.filterMap (plain_effectNotices before after r),
    deaf.filterMap (plain_toneNotices before after), List.append_nil, List.append_nil]
  cases told : hears (.snapshot (snapshot after (cycle + 1) r)) with
  | none => rw [List.filterMap_cons_none told]; rfl
  | some a => rw [List.filterMap_cons_some told]; rfl

end Observers

theorem Memory.loadRom_fatal {m : Memory} {program : List UInt8} {f : Fault}
    (h : m.loadRom program = .error f) : f.fatal = true := by
  rw [loadRom] at h
  split at h <;> cases h
  rfl

/-- A step that has returned: the system before it, and its report. -/
structure Execution where
  before : System
  report : StepReport

/-- The system after the step. -/
def Execution.after (e : Execution) : System := e.before.step.1

/-- What the step has told. -/
def Execution.notices (e : Execution) : List Notice :=
  Observers.stepNotices e.before.machine e.after.machine e.before.cycleCount e.report

namespace System

variable {s t : System} {turn_ : Turn} {e : Execution} {r : StepReport}

/-- The step that a turn is, if it is one and returns. -/
def execution? (s : System) : Turn → Option Execution
  | .step =>
    match s.step.2 with
    | .ok r => some ⟨s, r⟩
    | .error _ => none
  | _ => none

/-- The steps among some turns that return. -/
def executions (s : System) : List Turn → List Execution
  | [] => []
  | turn_ :: rest => (s.execution? turn_).toList ++ (s.turn turn_).executions rest

theorem execution?_eq_some :
    s.execution? turn_ = some e ↔
      turn_ = .step ∧ e.before = s ∧ s.step = (e.after, .ok e.report) := by
  cases turn_ with
  | step =>
    rw [execution?]
    rcases stepped : s.step with ⟨t, f | r⟩
    · simp
    · constructor
      · rintro ⟨⟩
        exact ⟨rfl, rfl, by rw [Execution.after, stepped]⟩
      · rintro ⟨-, before, same⟩
        cases same
        obtain ⟨_, _⟩ := e
        cases before
        rfl
  | _ => simp [execution?]

theorem execution?_eq_none (idle : s.execution? turn_ = none) :
    turn_ ≠ .step ∨ ∃ t f, s.step = (t, .error f) := by
  cases turn_ with
  | step =>
    rw [execution?] at idle
    rcases stepped : s.step with ⟨t, f | r⟩
    · exact .inr ⟨t, f, rfl⟩
    · rw [stepped] at idle
      cases idle
  | _ => exact .inl (by simp)

theorem mem_executions {turns : List Turn} (mem : e ∈ s.executions turns) :
    e.before.step = (e.after, .ok e.report) := by
  induction turns generalizing s with
  | nil => cases mem
  | cons turn_ turns ih =>
    rw [executions, List.mem_append, Option.mem_toList] at mem
    rcases mem with first | later
    · obtain ⟨-, rfl, stepped⟩ := execution?_eq_some.mp first
      exact stepped
    · exact ih later

/-- **A report names the word at the program counter**, decoded. -/
theorem step_report (h : s.step = (t, .ok r)) :
    ∃ w, s.machine.WordAt w ∧ r.address = s.pc ∧ r.instruction = .decode w ∧
      t.cycleCount = s.cycleCount + 1 := by
  have stepped := machine_step_of_ok h
  obtain ⟨w, after, n, word, -, -, report⟩ := Machine.step_outcome stepped
  refine ⟨w, word, by rw [report]; rfl, by rw [report, Machine.decode_of_lt word.lt], ?_⟩
  rw [step, stepped] at h
  rw [← (Prod.mk.inj h).1]

/-- What a step that returns tells. -/
theorem notices_of_step (h : s.step = (t, .ok r)) : s.notices .step =
    .lines s.machine.stepLines ::
      Observers.stepNotices s.machine t.machine s.cycleCount r := by
  rw [notices, stepNotices, machine_step_of_ok h]

/-! ## What else is told -/

theorem plain_loadNotices (s : System) (program : List UInt8) :
    ∀ notice ∈ s.loadNotices program, notice.Plain := by
  rw [loadNotices]
  cases loaded : s.machine.memory.loadRom program with
  | error f => simp [Notice.Plain, Memory.loadRom_fatal loaded]
  | ok memory => simp [Notice.Plain]

theorem plain_loadRomNotices (s : System) (fs : Files) (path : String) :
    ∀ notice ∈ s.loadRomNotices fs path, notice.Plain := by
  rw [loadRomNotices]
  cases fs.read path with
  | error e => simp
  | ok content =>
    intro notice mem
    rcases List.mem_append.mp mem with told | named
    · exact plain_loadNotices _ _ notice told
    · split at named
      · cases named
      · rw [List.mem_singleton.mp named]
        trivial

theorem plain_resetNotices (s : System) : ∀ notice ∈ s.resetNotices, notice.Plain := by
  rw [resetNotices]
  split
  · simp [Notice.Plain]
  · cases s.machine.memory.reset.loadRom s.program <;> simp [Notice.Plain]

theorem plain_keyNotices (s : System) (key : Datum) (down : Bool) :
    ∀ notice ∈ s.keyNotices key down, notice.Plain := by
  rw [keyNotices]
  cases keyOf key <;> cases down <;> simp [Notice.Plain, keyEvent]

theorem plain_hostNotices (s : System) (action : HostAction) :
    ∀ notice ∈ s.hostNotices action, notice.Plain := by
  cases action with
  | moveKey key down => exact s.plain_keyNotices key down
  | setKeys states =>
    rw [hostNotices, setKeysNotices]
    cases s.machine.keypad.setKeys states with
    | error e => simp
    | ok keypad =>
      intro notice mem
      rcases List.mem_cons.mp mem with rfl | told
      · trivial
      · obtain ⟨⟨key, down⟩, -, rfl⟩ := List.mem_map.mp told
        cases down <;> simp [Notice.Plain, keyEvent]
  | updateTimers elapsed =>
    rw [hostNotices, timerNotices]
    rcases s.machine.timers.update elapsed with ⟨timers, e | ticks⟩
    · simp
    · dsimp only
      split <;> simp [Notice.Plain]
  | moveHostKey name down =>
    rw [hostNotices]
    cases s.boundKey name with
    | none => simp
    | some key => exact s.plain_keyNotices key down

/-- A step that fails reports its fault, which is fatal. -/
theorem plain_stepNotices {f : Failure} (h : s.step = (t, .error f)) :
    ∀ notice ∈ s.stepNotices, notice.Plain := by
  rw [stepNotices]
  rcases stepped : s.machine.step with ⟨m, e | r⟩
  · have grave := Machine.step_fails_grave stepped
    cases e with
    | fault f => simp [Notice.Plain, Failure.grave_fault.mp grave]
    | _ => simp [Notice.Plain]
  · rw [step, stepped] at h
    cases h

/-- **Only a step that returns takes a snapshot or gives a warning.** -/
theorem plain_notices (idle : s.execution? turn_ = none) :
    ∀ notice ∈ s.notices turn_, notice.Plain := by
  cases turn_ with
  | loadProgram program => exact s.plain_loadNotices program
  | loadRom fs path => exact s.plain_loadRomNotices fs path
  | reset => exact s.plain_resetNotices
  | step =>
    rcases execution?_eq_none idle with other | ⟨t, f, failed⟩
    · exact absurd rfl other
    · exact plain_stepNotices failed
  | host action => exact s.plain_hostNotices action
  | owe debt => simp [notices]

/-- **Whoever does not listen to plain notices hears of the steps that return**, one after the
other. -/
theorem filterMap_noticesOf {α : Type} {hears : Notice → Option α} (deaf : Deaf hears) (s : System)
    (turns : List Turn) : (s.noticesOf turns).filterMap hears =
      (s.executions turns).flatMap fun e => e.notices.filterMap hears := by
  induction turns generalizing s with
  | nil => rfl
  | cons turn_ turns ih =>
    rw [noticesOf, executions, List.filterMap_append, ih, List.flatMap_append]
    congr 1
    cases executed : s.execution? turn_ with
    | none => exact deaf.filterMap (plain_notices executed)
    | some e =>
      obtain ⟨rfl, rfl, stepped⟩ := execution?_eq_some.mp executed
      have lines := deaf (.lines e.before.machine.stepLines) trivial
      rw [notices_of_step stepped, List.filterMap_cons_none lines]
      exact (List.append_nil _).symm

/-! ## The steps are counted -/

/-- None of the turns is a load that is granted or a reset that succeeds. -/
def Unbroken (s : System) : List Turn → Prop
  | [] => True
  | turn_ :: rest => ¬ s.Restarts turn_ ∧ (s.turn turn_).Unbroken rest

theorem unbroken_of_goesOn {turns : List Turn} (goesOn : ∀ turn_ ∈ turns, turn_.GoesOn) :
    s.Unbroken turns := by
  induction turns generalizing s with
  | nil => trivial
  | cons turn_ turns ih =>
    rw [List.forall_mem_cons] at goesOn
    exact ⟨not_restarts goesOn.1, ih goesOn.2⟩

/-- Two systems that have counted the same. -/
structure SameCounts (s t : System) : Prop where
  steps : t.cycleCount = s.cycleCount
  cycles : t.machine.cycles = s.machine.cycles
  unknown : t.machine.unknownCount = s.machine.unknownCount

theorem SameCounts.refl (s : System) : s.SameCounts s := ⟨rfl, rfl, rfl⟩

theorem Alike.sameCounts (alike : s.Alike t) : s.SameCounts t := by
  obtain ⟨o, rfl⟩ := alike
  exact ⟨rfl, rfl, rfl⟩

theorem sameCounts_moveKey (s : System) (key : Datum) (down : Bool) :
    s.SameCounts (s.moveKey key down).1 := by
  rw [moveKey]
  cases keyOf key <;> exact ⟨rfl, rfl, rfl⟩

/-- Keys and time are not counted. -/
theorem sameCounts_host (s : System) (action : HostAction) : s.SameCounts (s.host action) := by
  refine host_cases (P := s.SameCounts) (.refl s) s.sameCounts_moveKey (fun states => ?_)
    (fun elapsed => ?_) action
  · rw [setKeys]
    cases s.machine.keypad.setKeys states <;> exact ⟨rfl, rfl, rfl⟩
  · rw [updateTimers]
    rcases s.machine.timers.update elapsed with ⟨timers, e | ticks⟩
    · exact ⟨rfl, rfl, rfl⟩
    · dsimp only
      split <;> exact ⟨rfl, rfl, rfl⟩

theorem sameCounts_loadProgram {program : List UInt8}
    (refused : (s.loadProgram program).2 ≠ .ok ()) : s.SameCounts (s.loadProgram program).1 := by
  cases loaded : s.machine.memory.loadRom program with
  | error f => exact (loadProgram_of_error loaded).2.sameCounts
  | ok memory => exact absurd (loadProgram_of_ok loaded).1 refused

theorem sameCounts_loadRom {fs : Files} {path : String}
    (refused : (s.loadRom fs path).2 ≠ .ok ()) : s.SameCounts (s.loadRom fs path).1 := by
  rcases s.loadRom_cases fs path with ⟨same, -⟩ | ⟨program, answer, o, left⟩
  · rw [same]
    exact .refl s
  · rw [answer] at refused
    rw [left]
    obtain ⟨steps, cycles, unknown⟩ := sameCounts_loadProgram refused
    exact ⟨steps, cycles, unknown⟩

theorem sameCounts_reset (failed : s.reset.2 ≠ .ok ()) : s.SameCounts s.reset.1 := by
  cases start : s.startMemory with
  | ok memory => exact absurd (reset_of_ok start).1 failed
  | error f =>
    obtain ⟨-, o, left⟩ := reset_of_error start
    rw [left]
    exact ⟨rfl, rfl, rfl⟩

/-- A step that fails is not counted. -/
theorem sameCounts_step {f : Failure} (h : s.step = (t, .error f)) : s.SameCounts s.step.1 := by
  rw [step] at h ⊢
  rcases stepped : s.machine.step with ⟨m, e | r⟩
  · have values := Machine.step_fails_values stepped
    cases e <;> exact ⟨rfl, by rw [values], by rw [values]⟩
  · rw [stepped] at h
    cases h

/-- **A turn that executes nothing changes no counter**, unless it starts again. -/
theorem sameCounts_turn (idle : s.execution? turn_ = none) (unbroken : ¬ s.Restarts turn_) :
    s.SameCounts (s.turn turn_) := by
  cases turn_ with
  | loadProgram program => exact sameCounts_loadProgram unbroken
  | loadRom fs path => exact sameCounts_loadRom unbroken
  | reset => exact sameCounts_reset unbroken
  | step =>
    rcases execution?_eq_none idle with other | ⟨t, f, failed⟩
    · exact absurd rfl other
    · exact sameCounts_step failed
  | host action => exact s.sameCounts_host action
  | owe debt => exact ⟨rfl, rfl, rfl⟩

/-- **Each step comes after so many others** as were executed before it. -/
theorem executions_cycleCount {turns : List Turn} {k : Nat} (unbroken : s.Unbroken turns)
    (found : (s.executions turns)[k]? = some e) : e.before.cycleCount = s.cycleCount + k := by
  induction turns generalizing s k with
  | nil => cases found
  | cons turn_ turns ih =>
    rw [executions] at found
    cases executed : s.execution? turn_ with
    | none =>
      rw [executed] at found
      rw [ih unbroken.2 found, (sameCounts_turn executed unbroken.1).steps]
    | some first =>
      rw [executed] at found
      obtain ⟨rfl, rfl, stepped⟩ := execution?_eq_some.mp executed
      cases k with
      | zero =>
        cases found
        rfl
      | succ k =>
        obtain ⟨-, -, -, -, counted⟩ := step_report stepped
        have after : (first.before.turn .step).cycleCount = first.before.cycleCount + 1 := counted
        rw [ih unbroken.2 found, after]
        omega

end System
end ChipEight
