import ChipEight.CommandLine.Emulate
import ChipEight.Proofs.Recording
import ChipEight.Proofs.RegisterRange
import ChipEight.Proofs.StepFailure
import ChipEight.Proofs.Usability
/-! # Two drivers in step

A system can run for a number of cycles by itself (`System.runCycles`), or a driver takes each step
and then lets its time pass (`CommandLine.advance`).  Systems are twins if they have the same
machine, clock and count (`System.Twins`); driven in either way, twins stay twins and stop for the
same reason (`System.Twins.advance`).  A system whose display has pixels and whose timers are steady
(`System.Sturdy`) stops for a fault of a step alone, with the cycles before it counted
(`System.Sturdy.breaks_off`). -/

namespace ChipEight

/-- A machine that is built and laid out as by default, with any clock, timer rate and seed. -/
structure MachineConfig.Standard (config : MachineConfig) : Prop where
  memorySize : config.memorySize = defaultMemorySize
  programStart : config.programStart = defaultProgramStart
  stackDepth : config.stackDepth = defaultStackDepth
  width : config.width = defaultWidth
  height : config.height = defaultHeight

namespace System

variable {s t u : System} {traced : Prop} {tick : Number}

/-! ## Twins -/

/-- Systems that do the same: other names and observers make no difference, but if they are traced
their traces are the same. -/
structure Twins (traced : Prop) (s t : System) : Prop where
  machine : t.machine = s.machine
  clock : t.clock = s.clock
  cycleCount : t.cycleCount = s.cycleCount
  trace : traced → t.observers.trace = s.observers.trace

/-- What twins hear of a turn leaves them with the same trace, if it is the same. -/
theorem Twins.hears (twins : Twins traced s t) {notices notices' : List Notice}
    (same : snapshots notices' = snapshots notices) (recording : traced) :
    (t.observers.hearAll notices').trace = (s.observers.hearAll notices).trace := by
  rw [Observers.hearAll_trace, Observers.hearAll_trace, twins.trace recording, same]

theorem step_answer (s : System) : s.step.2 = s.machine.step.2 := by
  rw [step]
  rcases s.machine.step with ⟨m, (f | _) | r⟩ <;> rfl

theorem step_cycleCount (s : System) :
    s.step.1.cycleCount = s.cycleCount + s.machine.step.2.isOk.toNat := by
  rw [step]
  rcases s.machine.step with ⟨m, (f | _) | r⟩ <;> rfl

theorem Twins.step (twins : Twins traced s t) :
    t.step.2 = s.step.2 ∧ Twins traced s.step.1 t.step.1 := by
  have told : t.stepNotices = s.stepNotices := by
    rw [stepNotices, stepNotices, twins.machine, twins.cycleCount]
  refine ⟨by rw [step_answer, step_answer, twins.machine], ?_, ?_, ?_, fun recording => ?_⟩
  · rw [step_machine, step_machine, twins.machine]
  · rw [t.continues_step.clock, s.continues_step.clock, twins.clock]
  · rw [step_cycleCount, step_cycleCount, twins.machine, twins.cycleCount]
  · rw [step_observers, step_observers]
    exact twins.hears (congrArg snapshots told) recording

theorem Twins.updateTimers (twins : Twins traced s t) (elapsed : Number) :
    (t.updateTimers elapsed).2 = (s.updateTimers elapsed).2 ∧
      Twins traced (s.updateTimers elapsed).1 (t.updateTimers elapsed).1 := by
  have told : t.timerNotices elapsed = s.timerNotices elapsed := by
    rw [timerNotices, timerNotices, twins.machine]
  refine ⟨?_, ?_, ?_, ?_, fun recording => ?_⟩
  · rw [(t.updateTimers_eq elapsed).1, (s.updateTimers_eq elapsed).1, twins.machine]
  · simp only [System.updateTimers, twins.machine]
    rcases s.machine.timers.update elapsed with ⟨timers, e | ticks⟩
    · rfl
    · simp only [addNotes, mapObservers, twins.machine]
      split <;> rfl
  · rw [(t.continues_updateTimers elapsed).clock, (s.continues_updateTimers elapsed).clock,
      twins.clock]
  · exact (t.sameCounts_host (.updateTimers elapsed)).steps.trans
      (twins.cycleCount.trans (s.sameCounts_host (.updateTimers elapsed)).steps.symm)
  · rw [updateTimers_observers, updateTimers_observers]
    exact twins.hears (congrArg snapshots told) recording

theorem Twins.moveKey (twins : Twins traced s t) (key : Datum) (down : Bool) :
    Twins traced (s.moveKey key down).1 (t.moveKey key down).1 := by
  have told : t.keyNotices key down = s.keyNotices key down := by
    rw [keyNotices, keyNotices, twins.machine]
  refine ⟨?_, ?_, ?_, fun recording => ?_⟩
  · simp only [System.moveKey, addNotes, mapObservers, twins.machine]
    cases keyOf key with
    | error e => exact twins.machine
    | ok k => rfl
  · rw [(t.continues_moveKey key down).clock, (s.continues_moveKey key down).clock, twins.clock]
  · rw [(t.sameCounts_moveKey key down).steps, (s.sameCounts_moveKey key down).steps,
      twins.cycleCount]
  · rw [moveKey_observers, moveKey_observers]
    exact twins.hears (congrArg snapshots told) recording

/-- A program from a file is loaded as if it were given. -/
theorem Twins.load (twins : Twins traced s t) {fs : Files} {path : String} {content : ByteArray}
    (there : fs.read path = .ok content) (granted : (s.loadProgram content.toList).2 = .ok ()) :
    (t.loadRom fs path).2 = .ok () ∧
      Twins traced (s.loadProgram content.toList).1 (t.loadRom fs path).1 := by
  have quiet : snapshots (t.loadRomNotices fs path) =
      snapshots (s.loadNotices content.toList) :=
    (deaf_snapshot?.filterMap (t.plain_loadRomNotices fs path)).trans
      (deaf_snapshot?.filterMap (s.plain_loadNotices content.toList)).symm
  have heard (recording : traced) := twins.hears quiet recording
  rw [← loadRom_observers, ← loadProgram_observers] at heard
  cases loaded : s.machine.memory.loadRom content.toList with
  | error f =>
    rw [(loadProgram_of_error loaded).1] at granted
    cases granted
  | ok memory =>
    obtain ⟨-, o, left⟩ := loadProgram_of_ok loaded
    rw [← twins.machine] at loaded
    obtain ⟨o', named⟩ := loadRom_of_ok there loaded
    rw [named, left] at heard ⊢
    refine ⟨rfl, ?_, twins.clock, rfl, heard⟩
    simp only [begun, twins.machine]

/-- What changes in the observers but the trace is left alone makes no difference. -/
theorem Twins.mapObservers (twins : Twins traced s t) {change : Observers → Observers}
    (apart : (change t.observers).trace = t.observers.trace) :
    Twins traced s (t.mapObservers change) :=
  ⟨twins.machine, twins.clock, twins.cycleCount, fun recording =>
    apart.trans (twins.trace recording)⟩

/-! ## Runs -/

/-- **Twins stay twins, however they are driven**, and what stops the one stops the other. -/
theorem Twins.advance (twins : Twins traced s t) (lasts : s.stepTime = .ok tick) (n : Nat)
    (done : Array StepReport) :
    (CommandLine.advance tick n t).2 = (runCyclesFrom n s done).2.map (fun _ => ()) ∧
      Twins traced (runCyclesFrom n s done).1 (CommandLine.advance tick n t).1 := by
  induction n generalizing s t done with
  | zero => exact ⟨rfl, twins⟩
  | succ n ih =>
    obtain ⟨answer, stepped⟩ := twins.step
    have clock := s.continues_step.clock
    rw [runCyclesFrom, CommandLine.advance]
    rcases ran : s.step with ⟨s₁, e | r⟩ <;> rcases ran' : t.step with ⟨t₁, e' | r'⟩ <;>
      rw [ran, ran'] at answer stepped <;> cases answer
    · exact ⟨rfl, stepped⟩
    rw [ran] at clock
    have lasts₁ : s₁.stepTime = .ok tick := by rwa [stepTime, clock]
    obtain ⟨answer, passed⟩ := stepped.updateTimers tick
    have clock₁ := (s₁.continues_updateTimers tick).clock
    simp only [lasts₁]
    rcases went : s₁.updateTimers tick with ⟨s₂, e | k⟩ <;>
      rcases went' : t₁.updateTimers tick with ⟨t₂, e' | k'⟩ <;>
      rw [went, went'] at answer passed <;> cases answer
    · exact ⟨rfl, passed⟩
    rw [went] at clock₁
    exact ih passed (by rwa [stepTime, clock₁]) (done.push r)

/-- Cycles that are run to the end are counted, and reported one by one. -/
theorem runCyclesFrom_counts {n : Nat} {done reports : Array StepReport}
    (ran : runCyclesFrom n s done = (t, .ok reports)) :
    t.cycleCount = s.cycleCount + n ∧ reports.size = done.size + n := by
  induction n generalizing s done with
  | zero =>
    cases ran
    exact ⟨rfl, rfl⟩
  | succ n ih =>
    have counted := s.step_cycleCount
    rw [← step_answer] at counted
    rw [runCyclesFrom] at ran
    rcases stepped : s.step with ⟨s₁, e | r⟩ <;> rw [stepped] at ran counted
    · cases ran
    dsimp only at ran
    cases lasts : s₁.stepTime with
    | error e =>
      rw [lasts] at ran
      cases ran
    | ok tick =>
      have kept := (s₁.sameCounts_host (.updateTimers tick)).steps
      rw [host] at kept
      rcases passed : s₁.updateTimers tick with ⟨s₂, e | k⟩ <;>
        simp only [lasts, passed] at ran kept
      · cases ran
      · obtain ⟨count, size⟩ := ih ran
        rw [Array.size_push] at size
        change s₁.cycleCount = s.cycleCount + 1 at counted
        omega

/-! ## What stops a run -/

variable {config : MachineConfig} {T : ℚ}

/-- A system with all its parts, whose timers take every time of at most `T` seconds. -/
structure Sturdy (config : MachineConfig) (T : ℚ) (s : System) : Prop where
  reach : Reachable config s
  connected : s.machine.Connected
  steady : ∃ I, s.machine.timers.Steady I T

theorem Sturdy.turn (sturdy : Sturdy config T s) (turn_ : Turn) (lasts : s.Lasts (s.turn turn_))
    (brief : ∀ time ∈ turn_.elapsed?, time.AtMost T) : Sturdy config T (s.turn turn_) where
  reach := sturdy.reach.turn turn_
  connected := by
    obtain ⟨parts, width, height⟩ := sturdy.connected
    refine ⟨fun part => ?_, ?_, ?_⟩
    · rw [lasts.machine.wiring]
      exact parts part
    · rwa [lasts.machine.width]
    · rwa [lasts.machine.height]
  steady := sturdy.steady.imp fun _ steady => steady_turn steady brief

theorem Sturdy.step (sturdy : Sturdy config T s) : Sturdy config T s.step.1 :=
  sturdy.turn .step s.continues_step.toLasts (by simp [Turn.elapsed?])

theorem Sturdy.updateTimers (sturdy : Sturdy config T s) (brief : tick.AtMost T) :
    Sturdy config T (s.updateTimers tick).1 ∧ ∃ k, (s.updateTimers tick).2 = .ok k := by
  refine ⟨sturdy.turn (.host (.updateTimers tick)) (s.continues_updateTimers tick).toLasts
    (by simpa [Turn.elapsed?] using brief), ?_⟩
  obtain ⟨I, steady⟩ := sturdy.steady
  exact keepsTime_of_steady steady [] tick (by simp [elapsedOf]) brief

/-- A step of such a system fails with a fault or not at all. -/
theorem Sturdy.fault_of_step (sturdy : Sturdy config T s) (standard : config.Standard) {e : Failure}
    (failed : s.step = (t, .error e)) : ∃ f, e = .fault f := by
  have range : s.machine.InRange := by
    refine sturdy.reach.inRange ?_ ?_ ?_ ?_ <;>
      simp only [standard.memorySize, standard.programStart, standard.stackDepth] <;> decide
  have answer := s.step_answer
  rw [failed] at answer
  obtain ⟨f, fault, -⟩ := (Machine.step_fails_iff sturdy.connected range.pc_nonneg
    range.index_nonneg e).mp ⟨s.machine.step.1, Prod.ext rfl answer.symm⟩
  exact ⟨f, fault⟩

/-- A run that a fault breaks off after `count` cycles: the next step fails with it. -/
structure BreaksOff (s : System) (cycles : Nat) (f : Fault) (count : Nat) (t : System) : Prop where
  early : count < cycles
  completed : ∃ u reports, s.runCycles count = (u, .ok reports) ∧ reports.size = count ∧
    u.step = (t, .error (.fault f))
  counted : t.cycleCount = s.cycleCount + count

/-- A run that fails has failed at a step, behind cycles that were completed. -/
theorem Sturdy.runCyclesFrom_fails (sturdy : Sturdy config T s) (standard : config.Standard)
    (lasts : s.stepTime = .ok tick) (brief : tick.AtMost T) {n : Nat} {done : Array StepReport}
    {e : Failure} (ran : runCyclesFrom n s done = (t, .error e)) :
    ∃ f, e = .fault f ∧ ∃ k < n, ∃ u reports, runCyclesFrom k s done = (u, .ok reports) ∧
      u.step = (t, .error (.fault f)) := by
  induction n generalizing s done with
  | zero => cases ran
  | succ n ih =>
    have after := sturdy.step
    have clock := s.continues_step.clock
    rw [runCyclesFrom] at ran
    rcases stepped : s.step with ⟨s₁, e' | r⟩ <;> rw [stepped] at ran after clock
    · cases ran
      obtain ⟨f, rfl⟩ := sturdy.fault_of_step standard stepped
      exact ⟨f, rfl, 0, n.succ_pos, s, done, rfl, stepped⟩
    have lasts₁ : s₁.stepTime = .ok tick := by rwa [stepTime, clock]
    obtain ⟨later, k, taken⟩ := after.updateTimers brief
    have clock₁ := (s₁.continues_updateTimers tick).clock
    rcases passed : s₁.updateTimers tick with ⟨s₂, e' | k⟩ <;> rw [passed] at later taken clock₁ <;>
      cases taken
    simp only [lasts₁, passed] at ran
    obtain ⟨f, fault, k, early, u, reports, completed, failed⟩ :=
      ih later (by rwa [stepTime, clock₁]) ran
    refine ⟨f, fault, k + 1, Nat.succ_lt_succ early, u, reports, ?_, failed⟩
    simp only [runCyclesFrom, stepped, lasts₁, passed]
    exact completed

/-- **A run that fails is broken off by a fault**, with the cycles before it completed and
counted. -/
theorem Sturdy.breaks_off (sturdy : Sturdy config T s) (standard : config.Standard)
    (lasts : s.stepTime = .ok tick) (brief : tick.AtMost T) {cycles : Int} {e : Failure}
    (ran : s.runCycles cycles = (t, .error e)) :
    ∃ f, e = .fault f ∧ ∃ count, s.BreaksOff cycles.toNat f count t := by
  obtain ⟨f, fault, k, early, u, reports, completed, failed⟩ :=
    sturdy.runCyclesFrom_fails standard lasts brief ran
  obtain ⟨counted, size⟩ := runCyclesFrom_counts completed
  have kept := (sameCounts_step failed).steps
  rw [failed] at kept
  exact ⟨f, fault, k, early, ⟨u, reports, completed, by simpa using size, failed⟩,
    kept.trans counted⟩

end System
end ChipEight
