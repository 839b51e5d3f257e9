import ChipEight.Proofs.CallReturn
import ChipEight.Proofs.Outcome
import ChipEight.Request.Whole
/-! # Requests and their turns

What a host asks of a system is done in turns, each of which is done as a whole: a run for some
time is many steps and then the timers' turn (`System.serve_turns`).  `System.turned` says what a
turn can do to the machine and the program; whatever that keeps holds of every system that can be
reached (`System.Reachable.invariant`), between two requests as in the midst of one. -/

namespace ChipEight

/-- A machine with a new memory and everything else, but the random source, as it was at first. -/
def Machine.restarted (m : Machine) (memory : Memory) : Machine :=
  { m.resetProcessor with
    memory, display := m.display.reset, timers := m.timers.reset, keypad := .fresh }

namespace Keypad

variable {k k' : Keypad}

/-- What the host can do to a keypad: no wait begins or ends, and a key is kept only for a wait. -/
structure Handled (k k' : Keypad) : Prop where
  state : k'.state = k.state
  latched : k.state ≠ .awaiting → k'.latched = k.latched

theorem Handled.refl (k : Keypad) : k.Handled k := ⟨rfl, fun _ => rfl⟩

theorem handled_setKey (key : Key) (down : Bool) : k.Handled (k.setKey key down) where
  state := state_setKey
  latched idle := by rw [latched_setKey, if_neg fun both => idle both.1, Option.or_none]

theorem handled_setKeys {states : List Bool} (h : k.setKeys states = .ok k') : k.Handled k' := by
  by_cases length : states.length = 16
  · rw [setKeys_ok length] at h
    cases h
    refine ⟨state_foldl, fun idle => ?_⟩
    rw [latched_foldl (List.nodup_finRange 16), if_neg idle, Option.or_none]
  · rw [setKeys, if_neg length] at h
    cases h

end Keypad

/-- What a turn makes of a machine and of the program that a reset loads. -/
inductive Machine.Turned (m : Machine) (program : List UInt8) : Machine → List UInt8 → Prop
  /-- The host's keys and time. -/
  | host {m' : Machine} : m' = { m with keypad := m'.keypad, timers := m'.timers } →
      m.keypad.Handled m'.keypad → Turned m program m' program
  | step : Turned m program m.step.1 program
  | loaded {given : List UInt8} {memory : Memory} : m.memory.loadRom given = .ok memory →
      Turned m program (m.restarted memory) given
  | reset : program = [] → Turned m program (m.restarted m.memory.reset) program
  | reloaded {memory : Memory} : m.memory.reset.loadRom program = .ok memory →
      Turned m program (m.restarted memory) program
  /-- A reset that fails has emptied the memory. -/
  | broken {f : Fault} : program ≠ [] → m.memory.reset.loadRom program = .error f →
      Turned m program { m with memory := m.memory.reset } program

namespace System

variable {s t : System}

/-! ## Requests -/

/-- The system after a request, whether it was granted or failed. -/
def serve (fs : Files) (s : System) : SystemRequest → System
  | .loadProgram program => (s.loadProgram program).1
  | .loadRom path => (s.loadRom fs path).1
  | .reset => s.reset.1
  | .step => s.step.1
  | .updateTimers elapsed => (s.updateTimers elapsed).1
  | .runFor elapsed => (s.runFor elapsed).1
  | .runCycles cycles => (s.runCycles cycles).1
  | .pressKey key => (s.pressKey key).1
  | .releaseKey key => (s.releaseKey key).1
  | .setKeys states => (s.setKeys states).1
  | .pressHostKey name => (s.pressHostKey name).1
  | .releaseHostKey name => (s.releaseHostKey name).1

theorem onSystem_run {α : Type} (run : System → System × Except Failure α) (h : Host) :
    (Running.onSystem run).run h = ((run h.system).2, { h with system := (run h.system).1 }) := by
  have ran : (Running.onSystem run).run h =
      (ofExcept (run h.system).2 : Running α).run { h with system := (run h.system).1 } := rfl
  rw [ran]
  cases (run h.system).2 <;> rfl

/-- This is what a request leaves of the system of a host. -/
theorem run_request (q : SystemRequest) (h : Host) :
    (q.run.run h).2 = { h with system := h.system.serve h.files q } := by
  have only {α : Type} (run : System → System × Except Failure α) (reply : α → Reply) :
      ((Running.onSystem run >>= fun a => pure (reply a)).run h).2 =
        { h with system := (run h.system).1 } := by
    have ran := onSystem_run run h
    rw [ExceptT.run_bind]
    change (StateT.bind (Running.onSystem run).run _ h).2 = _
    rw [StateT.bind, ran]
    cases (run h.system).2 <;> rfl
  cases q with
  | loadProgram program => exact only _ _
  | loadRom path => exact only (·.loadRom h.files path) fun _ => .none
  | reset => exact only _ _
  | step => exact only _ _
  | updateTimers elapsed => exact only _ _
  | runFor elapsed => exact only _ _
  | runCycles cycles => exact only _ _
  | pressKey key => exact only _ _
  | releaseKey key => exact only _ _
  | setKeys states => exact only _ _
  | pressHostKey name => exact only _ _
  | releaseHostKey name => exact only _ _

/-! ## Turns -/

/-- What is done as a whole. -/
inductive Turn where
  | loadProgram (program : List UInt8)
  | loadRom (fs : Files) (path : String)
  | reset
  | step
  /-- Keys and time. -/
  | host (action : HostAction)
  /-- A run takes up the time that it is for. -/
  | owe (debt : Float)

def turn (s : System) : Turn → System
  | .loadProgram program => (s.loadProgram program).1
  | .loadRom fs path => (s.loadRom fs path).1
  | .reset => s.reset.1
  | .step => s.step.1
  | .host action => s.host action
  | .owe debt => { s with debt }

/-- So many steps, up to the first that fails, and then the turns given if none does. -/
def stepTurns : Nat → System → List Turn → List Turn
  | 0, _, last => last
  | n + 1, s, last =>
    .step :: match s.step with
      | (_, .error _) => []
      | (t, .ok _) => stepTurns n t last

/-- So many steps, each with the timers' turn behind it, up to the first turn that fails. -/
def cycleTurns : Nat → System → List Turn
  | 0, _ => []
  | n + 1, s =>
    .step :: match s.step with
      | (_, .error _) => []
      | (t, .ok _) =>
        match t.stepTime with
        | .error _ => []
        | .ok elapsed =>
          .host (.updateTimers elapsed) :: match t.updateTimers elapsed with
            | (_, .error _) => []
            | (u, .ok _) => cycleTurns n u

/-- The turns of a request. -/
def turns (fs : Files) (s : System) : SystemRequest → List Turn
  | .loadProgram program => [.loadProgram program]
  | .loadRom path => [.loadRom fs path]
  | .reset => [.reset]
  | .step => [.step]
  | .updateTimers elapsed => [.host (.updateTimers elapsed)]
  | .runFor elapsed =>
    match s.owe elapsed with
    | .error _ => []
    | .ok debt =>
      match Number.truncate? debt with
      | none => [.owe debt]
      | some cycles =>
        let rest := debt - (Number.floatOfInt? cycles).getD 0.0
        .owe rest :: stepTurns cycles.toNat { s with debt := rest } [.host (.updateTimers elapsed)]
  | .runCycles cycles => cycleTurns cycles.toNat s
  | .pressKey key => [.host (.moveKey key true)]
  | .releaseKey key => [.host (.moveKey key false)]
  | .setKeys states => [.host (.setKeys states)]
  | .pressHostKey name => [.host (.moveHostKey name true)]
  | .releaseHostKey name => [.host (.moveHostKey name false)]

theorem stepTurns_foldl (n : Nat) (s : System) (done : Array StepReport) (last : List Turn) :
    (stepTurns n s last).foldl turn s =
      match runSteps n s done with
      | (t, .error _) => t
      | (t, .ok _) => last.foldl turn t := by
  induction n generalizing s done with
  | zero => rfl
  | succ n ih =>
    rw [stepTurns, runSteps, List.foldl_cons, turn]
    rcases s.step with ⟨t, e | r⟩
    · rfl
    · exact ih t (done.push r)

theorem cycleTurns_foldl (n : Nat) (s : System) (done : Array StepReport) :
    (cycleTurns n s).foldl turn s = (runCyclesFrom n s done).1 := by
  induction n generalizing s done with
  | zero => rfl
  | succ n ih =>
    rw [cycleTurns, runCyclesFrom, List.foldl_cons, turn]
    rcases s.step with ⟨t, e | r⟩
    · rfl
    dsimp only
    cases t.stepTime with
    | error e => rfl
    | ok elapsed =>
      dsimp only
      rw [List.foldl_cons, turn, host]
      rcases t.updateTimers elapsed with ⟨u, e | ticks⟩
      · rfl
      · exact ih u (done.push r)

/-- **A request is its turns**, one after the other. -/
theorem serve_turns (fs : Files) (s : System) (q : SystemRequest) :
    s.serve fs q = (s.turns fs q).foldl turn s := by
  cases q with
  | runFor elapsed =>
    rw [serve, runFor, turns]
    cases s.owe elapsed with
    | error e => rfl
    | ok debt =>
      dsimp only
      cases Number.truncate? debt with
      | none => rfl
      | some cycles =>
        dsimp only
        rw [List.foldl_cons, turn, stepTurns_foldl _ _ #[]]
        rcases runSteps cycles.toNat _ #[] with ⟨t, e | reports⟩
        · rfl
        · dsimp only
          rw [List.foldl_cons, turn, host, List.foldl_nil]
          rcases t.updateTimers elapsed with ⟨u, e | ticks⟩ <;> rfl
  | runCycles cycles => exact (cycleTurns_foldl cycles.toNat s #[]).symm
  | _ => rfl

/-! ## What a turn does -/

theorem moveKey_program (s : System) (key : Datum) (down : Bool) :
    (s.moveKey key down).1.program = s.program := by
  rw [moveKey]
  split <;> rfl

theorem host_program (s : System) (action : HostAction) :
    (s.host action).program = s.program := by
  refine host_cases (P := fun t => t.program = s.program) rfl s.moveKey_program (fun states => ?_)
    (fun elapsed => ?_) action
  · rw [setKeys]
    split <;> rfl
  · rw [updateTimers]
    split
    · rfl
    · dsimp only
      split <;> rfl

theorem moveKey_handled (s : System) (key : Datum) (down : Bool) :
    s.machine.keypad.Handled (s.moveKey key down).1.machine.keypad := by
  rw [moveKey]
  cases keyOf key with
  | error e => exact .refl _
  | ok k => exact Keypad.handled_setKey k down

theorem host_handled (s : System) (action : HostAction) :
    s.machine.keypad.Handled (s.host action).machine.keypad := by
  refine host_cases (P := fun t => s.machine.keypad.Handled t.machine.keypad) (.refl _)
    s.moveKey_handled (fun states => ?_) (fun elapsed => ?_) action
  · rw [setKeys]
    cases set : s.machine.keypad.setKeys states with
    | error e => exact .refl _
    | ok keypad => exact Keypad.handled_setKeys set
  · rw [updateTimers]
    rcases s.machine.timers.update elapsed with ⟨timers, e | ticks⟩
    · exact .refl _
    · dsimp only
      split <;> exact .refl _

/-- A turn from one system to another, as far as machine and program go. -/
def Turned (s t : System) : Prop := s.machine.Turned s.program t.machine t.program

/-- A turn that leaves machine and program alone. -/
theorem Turned.of_same (machine : t.machine = s.machine) (program : t.program = s.program) :
    Turned s t := by
  rw [Turned, machine, program]
  exact .host rfl (.refl _)

theorem loadProgram_turned (s : System) (program : List UInt8) :
    Turned s (s.loadProgram program).1 := by
  rw [loadProgram]
  cases loaded : s.machine.memory.loadRom program with
  | error f => exact .of_same rfl rfl
  | ok memory => exact .loaded loaded

theorem loadRom_turned (fs : Files) (s : System) (path : String) :
    Turned s (s.loadRom fs path).1 := by
  rw [loadRom]
  cases fs.read path with
  | error e => exact .of_same rfl rfl
  | ok content =>
    -- the new name is no part of what a turn is about
    have loaded : Turned s _ :=
      { s with romName := Files.baseName path }.loadProgram_turned content.toList
    dsimp only
    split
    · rename_i answer
      rwa [answer] at loaded
    · rename_i answer
      rwa [answer] at loaded

theorem reset_program (s : System) : s.reset.1.program = s.program := by
  by_cases empty : s.program.isEmpty = true
  · simp only [System.reset, addNotes, mapObservers, empty, if_true]
    rfl
  · simp only [System.reset, addNotes, mapObservers, empty]
    cases s.machine.memory.reset.loadRom s.program <;> rfl

/-- A reset starts with an empty memory or with the program again, unless that no longer fits. -/
theorem reset_cases (s : System) :
    s.program = [] ∧ s.reset.1.machine = s.machine.restarted s.machine.memory.reset ∨
    (∃ memory, s.machine.memory.reset.loadRom s.program = .ok memory ∧
      s.reset.1.machine = s.machine.restarted memory) ∨
    ∃ f, s.program ≠ [] ∧ s.machine.memory.reset.loadRom s.program = .error f ∧
      s.reset.1.machine = { s.machine with memory := s.machine.memory.reset } := by
  by_cases empty : s.program.isEmpty = true
  · simp only [System.reset, addNotes, mapObservers, empty, if_true]
    exact .inl ⟨List.isEmpty_iff.mp empty, rfl⟩
  · simp only [System.reset, addNotes, mapObservers, empty]
    right
    cases loaded : s.machine.memory.reset.loadRom s.program with
    | ok memory => exact .inl ⟨memory, rfl, rfl⟩
    | error f => exact .inr ⟨f, fun none_ => empty (List.isEmpty_iff.mpr none_), rfl, rfl⟩

theorem reset_turned (s : System) : Turned s s.reset.1 := by
  rw [Turned, reset_program]
  rcases s.reset_cases with ⟨none_, machine⟩ | ⟨memory, loaded, machine⟩ |
    ⟨f, some_, failed, machine⟩
  · rw [machine]
    exact .reset none_
  · rw [machine]
    exact .reloaded loaded
  · rw [machine]
    exact .broken some_ failed

/-- A step of the system takes one of its machine. -/
theorem step_machine (s : System) : s.step.1.machine = s.machine.step.1 := by
  rw [System.step]
  rcases s.machine.step with ⟨machine, (f | _) | r⟩ <;> rfl

theorem step_program (s : System) : s.step.1.program = s.program := by
  rw [System.step]
  rcases s.machine.step with ⟨machine, (f | _) | r⟩ <;> rfl

theorem step_turned (s : System) : Turned s s.step.1 := by
  rw [Turned, step_machine, step_program]
  exact .step

theorem turned (s : System) (turn_ : Turn) : Turned s (s.turn turn_) := by
  cases turn_ with
  | loadProgram program => exact s.loadProgram_turned program
  | loadRom fs path => exact s.loadRom_turned fs path
  | reset => exact s.reset_turned
  | step => exact s.step_turned
  | host action =>
    rw [turn, Turned, host_program]
    exact .host (s.host_hostMoves action) (s.host_handled action)
  | owe debt => exact .of_same rfl rfl

/-! ## Systems that can be reached -/

/-- The systems that come up after a system is put together, also in the midst of a request. -/
inductive Reachable (config : MachineConfig) : System → Prop
  | boot {o : Observers} {s : System} : (config.boot o).2 = .ok s → Reachable config s
  | serve {s : System} (fs : Files) (q : SystemRequest) :
      Reachable config s → Reachable config (s.serve fs q)
  | turn {s : System} (turn_ : Turn) : Reachable config s → Reachable config (s.turn turn_)

theorem Reachable.turns {config : MachineConfig} {s : System} (reach : Reachable config s)
    (turns : List Turn) : Reachable config (turns.foldl System.turn s) := by
  induction turns generalizing s with
  | nil => exact reach
  | cons turn_ turns ih => exact ih (reach.turn turn_)

theorem turns_invariant {P : Machine → List UInt8 → Prop}
    (step : ∀ {m m' p p'}, P m p → m.Turned p m' p' → P m' p') {s : System} (turns : List Turn)
    (start : P s.machine s.program) :
    P (turns.foldl turn s).machine (turns.foldl turn s).program := by
  induction turns generalizing s with
  | nil => exact start
  | cons turn_ turns ih => exact ih (step start (s.turned turn_))

/-- What holds at first and is kept by every turn holds of every system that can be reached. -/
theorem Reachable.invariant {config : MachineConfig} {P : Machine → List UInt8 → Prop}
    (boot : ∀ {o : Observers} {s : System}, (config.boot o).2 = .ok s → P s.machine s.program)
    (step : ∀ {m m' p p'}, P m p → m.Turned p m' p' → P m' p') {s : System}
    (reach : Reachable config s) : P s.machine s.program := by
  induction reach with
  | boot booted => exact boot booted
  | serve fs q _ ih =>
    rw [serve_turns]
    exact turns_invariant step _ ih
  | turn turn_ _ ih => exact step ih (turned _ turn_)

/-- A system as it is put together. -/
structure Fresh (config : MachineConfig) (s : System) : Prop where
  memory : Memory.create config.memorySize config.programStart = .ok s.machine.memory
  registers : s.machine.registers = .create config.stackDepth config.programStart
  keypad : s.machine.keypad = .fresh
  wiring : s.machine.wiring = {}
  program : s.program = []

/-- The parts of such a system that face the host. -/
structure Equipped (config : MachineConfig) (s : System) : Prop where
  display : Display.create config.width config.height = .ok s.machine.display
  timers : Timers.create config.timerRate = .ok s.machine.timers

/-- What is put together, from parts that could be made. -/
theorem boot_cases {config : MachineConfig} {o : Observers} (booted : (config.boot o).2 = .ok s) :
    ∃ memory display timers observers,
      Memory.create config.memorySize config.programStart = .ok memory ∧
      Display.create config.width config.height = .ok display ∧
      Timers.create config.timerRate = .ok timers ∧ observers.trace = o.trace ∧
      s = {
        machine := {
          registers := .create config.stackDepth config.programStart
          memory, display, timers
          keypad := .fresh
          source := .ofSeed? config.unseeded config.seed
          cycles := 0, unknownCount := 0, wiring := {} }
        clock := config.clock
        cycleCount := 0
        debt := 0.0
        program := []
        romName := ""
        romLoaded := false
        keymap := Datum.ofEntries (config.keymap.map fun (k, v) => (hostName k, v))
        observers } := by
  simp only [MachineConfig.boot] at booted
  cases memory : Memory.create config.memorySize config.programStart <;> rw [memory] at booted
  · cases booted
  cases display : Display.create config.width config.height <;> rw [display] at booted
  · cases booted
  cases timers : Timers.create config.timerRate <;> rw [timers] at booted <;> cases booted
  refine ⟨_, _, _, _, rfl, rfl, rfl, ?_, rfl⟩
  rfl

theorem boot_whole {config : MachineConfig} {o : Observers} (h : (config.boot o).2 = .ok s) :
    Fresh config s ∧ Equipped config s := by
  obtain ⟨_, _, _, _, memory, display, timers, -, rfl⟩ := boot_cases h
  exact ⟨⟨memory, rfl, rfl, rfl, rfl⟩, display, timers⟩

theorem boot_fresh {config : MachineConfig} {o : Observers} (h : (config.boot o).2 = .ok s) :
    Fresh config s := (boot_whole h).1

theorem boot_equipped {config : MachineConfig} {o : Observers} (h : (config.boot o).2 = .ok s) :
    Equipped config s := (boot_whole h).2

end System
end ChipEight
