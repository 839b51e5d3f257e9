import ChipEight.Proofs.Drawing
import ChipEight.Proofs.GlyphGuard
import ChipEight.Proofs.Transparency
/-! # What lasts

A machine becomes another in whatever way: its layout, the dimensions of its display and the rate of
its timers stay, and an intact memory stays intact (`Machine.Becomes`).  Nothing that happens to a
system does more (`System.happen_lasts`), and all but a successful load leaves it the program that
it was given (`System.happen_continues`). -/

namespace ChipEight

theorem Display.drawSprite_dims {d d' : Display} {x y : Int} {sprite : List Int} {hit : Bool}
    (h : d.drawSprite x y sprite = .ok (d', hit)) :
    d'.grid.width = d.grid.width ∧ d'.grid.height = d.grid.height := by
  rw [drawSprite] at h
  split at h
  · cases h
    have dims := toggleAll_dims (spots d.grid.width d.grid.height x y sprite) (d.grid, false)
    rwa [drawRows_eq]
  · cases h

namespace Timers

/-- Timers of one rate. -/
structure SameRate (t t' : Timers) : Prop where
  rate : t'.rate = t.rate
  interval : t'.interval = t.interval

theorem sameRate_tickMany (n : Nat) (t : Timers) : SameRate t (tickMany n t) := by
  induction n generalizing t with
  | zero => exact ⟨rfl, rfl⟩
  | succ n ih =>
    obtain ⟨rate, interval⟩ := ih t.tick
    exact ⟨rate, interval⟩

theorem sameRate_update (t : Timers) (elapsed : Number) : SameRate t (t.update elapsed).1 := by
  rw [update]
  split
  · exact ⟨rfl, rfl⟩
  cases elapsed.toFloat? with
  | none => exact ⟨rfl, rfl⟩
  | some seconds =>
    dsimp only
    cases wholeTicks (t.carried + seconds) t.interval with
    | error e => exact ⟨rfl, rfl⟩
    | ok ticks =>
      dsimp only
      cases Number.floatOfInt? ticks with
      | none => exact ⟨rfl, rfl⟩
      | some paid =>
        obtain ⟨rate, interval⟩ := sameRate_tickMany ticks.toNat
          { t with carried := t.carried + seconds - paid * t.interval }
        exact ⟨rate, interval⟩

end Timers

namespace Machine

variable {m m' m'' : Machine}

/-- What lasts of a machine, whatever becomes of it. -/
structure Becomes (m m' : Machine) : Prop extends SameLayout m m' where
  width : m'.display.grid.width = m.display.grid.width
  height : m'.display.grid.height = m.display.grid.height
  timers : m.timers.SameRate m'.timers
  intact : ∀ {size : Int}, m.memory.Intact size → m'.memory.Intact size

theorem Becomes.refl (m : Machine) : m.Becomes m :=
  ⟨⟨rfl, ⟨rfl, rfl⟩, rfl, rfl⟩, rfl, rfl, ⟨rfl, rfl⟩, id⟩

theorem Becomes.trans (first : m.Becomes m') (second : m'.Becomes m'') : m.Becomes m'' where
  wiring := second.wiring.trans first.wiring
  memory :=
    ⟨second.memory.size.trans first.memory.size,
      second.memory.programStart.trans first.memory.programStart⟩
  stackDepth := second.stackDepth.trans first.stackDepth
  programStart := second.programStart.trans first.programStart
  width := second.width.trans first.width
  height := second.height.trans first.height
  timers :=
    ⟨second.timers.rate.trans first.timers.rate, second.timers.interval.trans first.timers.interval⟩
  intact intact := second.intact (first.intact intact)

/-! ## New parts -/

theorem becomes_memory {memory : Memory} (shape : m.memory.SameShape memory)
    (intact : ∀ {size : Int}, m.memory.Intact size → memory.Intact size) :
    m.Becomes { m with memory } :=
  ⟨⟨rfl, shape, rfl, rfl⟩, rfl, rfl, ⟨rfl, rfl⟩, intact⟩

theorem becomes_registers {registers : Registers}
    (depth : registers.stackDepth = m.registers.stackDepth)
    (start : registers.programStart = m.registers.programStart) :
    m.Becomes { m with registers } :=
  ⟨⟨rfl, ⟨rfl, rfl⟩, depth, start⟩, rfl, rfl, ⟨rfl, rfl⟩, id⟩

theorem becomes_display {display : Display} (width : display.grid.width = m.display.grid.width)
    (height : display.grid.height = m.display.grid.height) : m.Becomes { m with display } :=
  ⟨⟨rfl, ⟨rfl, rfl⟩, rfl, rfl⟩, width, height, ⟨rfl, rfl⟩, id⟩

theorem becomes_timers {timers : Timers} (rate : m.timers.SameRate timers) :
    m.Becomes { m with timers } :=
  ⟨⟨rfl, ⟨rfl, rfl⟩, rfl, rfl⟩, rfl, rfl, rate, id⟩

theorem becomes_keypad (m : Machine) (keypad : Keypad) : m.Becomes { m with keypad } :=
  ⟨⟨rfl, ⟨rfl, rfl⟩, rfl, rfl⟩, rfl, rfl, ⟨rfl, rfl⟩, id⟩

theorem becomes_restarted {memory : Memory} (shape : m.memory.SameShape memory)
    (intact : ∀ {size : Int}, m.memory.Intact size → memory.Intact size) :
    m.Becomes (m.restarted memory) :=
  ⟨sameLayout_restarted shape, rfl, rfl, ⟨rfl, rfl⟩, intact⟩

/-! ## Instructions -/

theorem becomes_withPart {part : Part} {run : Unit → Machine × Except Failure Next}
    (becomes : m.Becomes (run ()).1) : m.Becomes (m.withPart part run).1 := by
  rw [withPart]
  split
  · exact becomes
  · exact .refl m

theorem becomes_storeBlock (m : Machine) (data : List UInt8) : m.Becomes (m.storeBlock data).1 := by
  rw [storeBlock]
  cases written : m.memory.writeBlock m.registers.index data with
  | error f => exact .refl m
  | ok memory =>
    exact becomes_memory (Memory.sameShape_writeBlock written) fun intact =>
      intact.writeBlock written

theorem becomes_drawRows (m : Machine) (x y : Reg) (rows : Nat) :
    m.Becomes (m.drawRows x y rows).1 := by
  rw [drawRows]
  split
  · exact .refl m
  split
  · exact .refl m
  split
  · exact .refl m
  split
  · exact .refl m
  · rename_i drawn
    obtain ⟨width, height⟩ := Display.drawSprite_dims drawn
    exact (becomes_display width height).trans (becomes_registers rfl rfl)

/-- **An operation leaves the build of the machine alone**, whether it succeeds or fails. -/
theorem becomes_perform (m : Machine) (address : Int) (op : Operation) :
    m.Becomes (m.perform address op).1 := by
  cases op with
  | ret =>
    rw [perform, Registers.pop]
    cases m.registers.stack with
    | nil => exact .refl m
    | cons target rest => exact becomes_registers rfl rfl
  | call target =>
    rw [perform, Registers.push]
    by_cases full : m.registers.stackDepth ≤ m.registers.depth
    · rw [if_pos full]
      exact .refl m
    · rw [if_neg full]
      exact becomes_registers rfl rfl
  | clear => exact becomes_withPart (becomes_display rfl rfl)
  | draw x y rows => exact m.becomes_drawRows x y rows
  | skipPressed x | skipReleased x => exact becomes_withPart (.refl m)
  | readDelay x | glyph x => exact becomes_withPart (becomes_registers rfl rfl)
  | setDelay x | setSound x => exact becomes_withPart (becomes_timers ⟨rfl, rfl⟩)
  | digits x | store x => exact becomes_withPart (m.becomes_storeBlock _)
  | waitKey x =>
    refine becomes_withPart ?_
    rcases m.keypad.waitForKey with ⟨_ | key, keypad⟩
    · exact m.becomes_keypad keypad
    · exact (m.becomes_keypad keypad).trans (becomes_registers rfl rfl)
  | fetch x =>
    refine becomes_withPart ?_
    rcases loaded : fetchRegs m.memory m.registers (regsThrough x) with ⟨registers, result⟩
    dsimp only
    rw [fetchRegs_index loaded]
    exact becomes_registers rfl rfl
  | random x mask | unknown w => exact ⟨⟨rfl, ⟨rfl, rfl⟩, rfl, rfl⟩, rfl, rfl, ⟨rfl, rfl⟩, id⟩
  | jump target | jumpOffset target => exact .refl m
  | skipEq x byte | skipNe x byte | skipEqReg x y | skipNeReg x y => exact .refl m
  | _ => exact becomes_registers rfl rfl

theorem becomes_execute (m : Machine) (i : Instruction) (address : Int) :
    m.Becomes (m.execute i address).1 := by
  have becomes := m.becomes_perform address i.operation
  rw [execute]
  rcases performed : m.perform address i.operation with ⟨s, e | next⟩ <;> rw [performed] at becomes
  · exact becomes
  · obtain ⟨layout, width, height, timers, intact⟩ := becomes
    exact ⟨⟨layout.wiring, layout.memory, layout.stackDepth, layout.programStart⟩, width, height,
      timers, intact⟩

theorem becomes_step (m : Machine) : m.Becomes m.step.1 := by
  rw [step]
  split
  · exact .refl m
  split
  · exact .refl m
  · exact m.becomes_execute _ _

end Machine

namespace System

variable {s t u : System}

/-- What lasts of a system, whatever happens to it. -/
structure Lasts (s t : System) : Prop where
  machine : s.machine.Becomes t.machine
  clock : t.clock = s.clock
  keymap : t.keymap = s.keymap

/-- What lasts of a system while no program is loaded. -/
structure Continues (s t : System) : Prop extends Lasts s t where
  program : t.program = s.program
  romLoaded : t.romLoaded = s.romLoaded

theorem Lasts.trans (first : s.Lasts t) (second : t.Lasts u) : s.Lasts u :=
  ⟨first.machine.trans second.machine, second.clock.trans first.clock,
    second.keymap.trans first.keymap⟩

theorem Continues.refl (s : System) : s.Continues s := ⟨⟨.refl _, rfl, rfl⟩, rfl, rfl⟩

theorem Continues.trans (first : s.Continues t) (second : t.Continues u) : s.Continues u :=
  ⟨first.toLasts.trans second.toLasts, second.program.trans first.program,
    second.romLoaded.trans first.romLoaded⟩

theorem Alike.continues (alike : s.Alike t) : s.Continues t := by
  obtain ⟨o, rfl⟩ := alike
  exact ⟨⟨.refl _, rfl, rfl⟩, rfl, rfl⟩

/-! ## The operations -/

theorem continues_step (s : System) : s.Continues s.step.1 := by
  have becomes := s.machine.becomes_step
  rw [step]
  rcases stepped : s.machine.step with ⟨m, e | r⟩ <;> rw [stepped] at becomes
  · cases e <;> exact ⟨⟨becomes, rfl, rfl⟩, rfl, rfl⟩
  · exact ⟨⟨becomes, rfl, rfl⟩, rfl, rfl⟩

theorem continues_updateTimers (s : System) (elapsed : Number) :
    s.Continues (s.updateTimers elapsed).1 := by
  have rate := Timers.sameRate_update s.machine.timers elapsed
  rw [updateTimers]
  rcases updated : s.machine.timers.update elapsed with ⟨timers, e | ticks⟩ <;> rw [updated] at rate
  · exact ⟨⟨Machine.becomes_timers rate, rfl, rfl⟩, rfl, rfl⟩
  · have consumed : s.machine.Becomes { s.machine with timers := timers.consumeToneEnd.2 } :=
      Machine.becomes_timers ⟨rate.rate, rate.interval⟩
    dsimp only
    split <;> exact ⟨⟨consumed, rfl, rfl⟩, rfl, rfl⟩

theorem continues_runSteps (n : Nat) (s : System) (done : Array StepReport) :
    s.Continues (runSteps n s done).1 := by
  induction n generalizing s done with
  | zero => exact .refl s
  | succ n ih =>
    have stepped := s.continues_step
    rw [runSteps]
    rcases ran : s.step with ⟨t, e | r⟩ <;> rw [ran] at stepped
    · exact stepped
    · exact stepped.trans (ih t (done.push r))

theorem continues_runFor (s : System) (elapsed : Number) : s.Continues (s.runFor elapsed).1 := by
  have owing (debt : Float) : s.Continues { s with debt } := ⟨⟨.refl _, rfl, rfl⟩, rfl, rfl⟩
  rw [runFor]
  cases s.owe elapsed with
  | error e => exact .refl s
  | ok debt =>
    dsimp only
    cases Number.truncate? debt with
    | none => exact owing debt
    | some cycles =>
      have stepped := (owing (debt - (Number.floatOfInt? cycles).getD 0.0)).trans
        (continues_runSteps cycles.toNat _ #[])
      dsimp only
      rcases ran : runSteps cycles.toNat _ #[] with ⟨t, e | reports⟩ <;> rw [ran] at stepped
      · exact stepped
      · have passed := stepped.trans (t.continues_updateTimers elapsed)
        dsimp only
        rcases updated : t.updateTimers elapsed with ⟨u, e | ticks⟩ <;> rw [updated] at passed <;>
          exact passed

theorem continues_runCyclesFrom (n : Nat) (s : System) (done : Array StepReport) :
    s.Continues (runCyclesFrom n s done).1 := by
  induction n generalizing s done with
  | zero => exact .refl s
  | succ n ih =>
    have stepped := s.continues_step
    rw [runCyclesFrom]
    rcases ran : s.step with ⟨t, e | r⟩ <;> rw [ran] at stepped
    · exact stepped
    dsimp only
    cases t.stepTime with
    | error e => exact stepped
    | ok elapsed =>
      have passed := stepped.trans (t.continues_updateTimers elapsed)
      dsimp only
      rcases updated : t.updateTimers elapsed with ⟨u, e | ticks⟩ <;> rw [updated] at passed
      · exact passed
      · exact passed.trans (ih u (done.push r))

theorem continues_moveKey (s : System) (key : Datum) (down : Bool) :
    s.Continues (s.moveKey key down).1 := by
  rw [moveKey]
  cases keyOf key with
  | error e => exact .refl s
  | ok k => exact ⟨⟨s.machine.becomes_keypad _, rfl, rfl⟩, rfl, rfl⟩

theorem continues_setKeys (s : System) (states : List Bool) :
    s.Continues (s.setKeys states).1 := by
  rw [setKeys]
  cases s.machine.keypad.setKeys states with
  | error e => exact .refl s
  | ok keypad => exact ⟨⟨s.machine.becomes_keypad keypad, rfl, rfl⟩, rfl, rfl⟩

/-- Neither do the host's keys, nor time. -/
theorem continues_host (s : System) (action : HostAction) : s.Continues (s.host action) :=
  host_cases (P := s.Continues) (.refl s) s.continues_moveKey s.continues_setKeys
    s.continues_updateTimers action

/-! ## Loads and resets -/

/-- The system with a program in memory and everything else as at first. -/
def begun (s : System) (memory : Memory) (program : List UInt8) (o : Observers) : System :=
  { s with
    machine := s.machine.restarted memory, cycleCount := 0, debt := 0.0, program, romLoaded := true
    observers := o }

theorem loadProgram_of_ok {program : List UInt8} {memory : Memory}
    (loaded : s.machine.memory.loadRom program = .ok memory) :
    (s.loadProgram program).2 = .ok () ∧
      ∃ o, (s.loadProgram program).1 = s.begun memory program o := by
  rw [loadProgram, loaded]
  exact ⟨rfl, _, rfl⟩

/-- A load that is refused is told to the observers and changes nothing else. -/
theorem loadProgram_of_error {program : List UInt8} {f : Fault}
    (refused : s.machine.memory.loadRom program = .error f) :
    (s.loadProgram program).2 = .error (.fault f) ∧ s.Alike (s.loadProgram program).1 := by
  rw [loadProgram, refused]
  exact ⟨rfl, _, rfl⟩

theorem loadProgram_fits {program : List UInt8} (granted : (s.loadProgram program).2 = .ok ()) :
    program.length ≤ s.machine.memory.capacity := by
  cases loaded : s.machine.memory.loadRom program with
  | error f =>
    rw [(loadProgram_of_error loaded).1] at granted
    cases granted
  | ok memory => exact Memory.loadRom_fits loaded

/-- The memory that a reset begins with. -/
def startMemory (s : System) : Except Fault Memory :=
  if s.program.isEmpty then .ok s.machine.memory.reset
  else s.machine.memory.reset.loadRom s.program

theorem reset_of_ok {memory : Memory} (start : s.startMemory = .ok memory) :
    s.reset.2 = .ok () ∧ ∃ o, s.reset.1 =
      { s with
        machine := s.machine.restarted memory, cycleCount := 0, debt := 0.0, observers := o } := by
  rw [startMemory] at start
  by_cases empty : s.program.isEmpty = true
  · rw [if_pos empty] at start
    cases start
    simp only [reset, addNotes, mapObservers, empty]
    exact ⟨rfl, _, rfl⟩
  · rw [if_neg empty] at start
    simp only [reset, addNotes, mapObservers, empty, start]
    exact ⟨rfl, _, rfl⟩

theorem reset_of_error {f : Fault} (start : s.startMemory = .error f) :
    s.reset.2 = .error (.fault f) ∧ ∃ o, s.reset.1 =
      { s with
        machine := { s.machine with memory := s.machine.memory.reset }, observers := o } := by
  rw [startMemory] at start
  by_cases empty : s.program.isEmpty = true
  · rw [if_pos empty] at start
    cases start
  · rw [if_neg empty] at start
    simp only [reset, addNotes, mapObservers, empty, start]
    exact ⟨rfl, _, rfl⟩

theorem continues_reset (s : System) : s.Continues s.reset.1 := by
  cases start : s.startMemory with
  | error f =>
    obtain ⟨-, o, left⟩ := reset_of_error start
    rw [left]
    exact ⟨⟨Machine.becomes_memory Memory.sameShape_reset fun intact => intact.reset, rfl, rfl⟩,
      rfl, rfl⟩
  | ok memory =>
    obtain ⟨-, o, left⟩ := reset_of_ok start
    rw [left]
    refine ⟨⟨?_, rfl, rfl⟩, rfl, rfl⟩
    rw [startMemory] at start
    split at start
    · cases start
      exact Machine.becomes_restarted Memory.sameShape_reset fun intact => intact.reset
    · obtain ⟨size, programStart⟩ := Memory.sameShape_loadRom start
      exact Machine.becomes_restarted ⟨size, programStart⟩ fun intact => intact.reset.loadRom start

theorem lasts_loadProgram (s : System) (program : List UInt8) :
    s.Lasts (s.loadProgram program).1 := by
  cases loaded : s.machine.memory.loadRom program with
  | error f => exact (loadProgram_of_error loaded).2.continues.toLasts
  | ok memory =>
    obtain ⟨-, o, left⟩ := loadProgram_of_ok loaded
    rw [left]
    exact ⟨Machine.becomes_restarted (Memory.sameShape_loadRom loaded) fun intact =>
      intact.loadRom loaded, rfl, rfl⟩

theorem loadRom_of_ok {fs : Files} {path : String} {content : ByteArray} {memory : Memory}
    (there : fs.read path = .ok content)
    (loaded : s.machine.memory.loadRom content.toList = .ok memory) : ∃ o, s.loadRom fs path =
      ({ s with romName := Files.baseName path }.begun memory content.toList o, .ok ()) := by
  simp only [loadRom, there, loadProgram, loaded]
  exact ⟨_, rfl⟩

/-- A load from a file is a load of what the file holds, under the file's name. -/
theorem loadRom_cases (s : System) (fs : Files) (path : String) :
    ((s.loadRom fs path).1 = s ∧ ∃ e, (s.loadRom fs path).2 = .error e) ∨
    ∃ program,
      (s.loadRom fs path).2 =
        ({ s with romName := Files.baseName path }.loadProgram program).2 ∧
      ({ s with romName := Files.baseName path }.loadProgram program).1.Alike
        (s.loadRom fs path).1 := by
  rw [loadRom]
  cases fs.read path with
  | error e => exact .inl ⟨rfl, _, rfl⟩
  | ok content =>
    refine .inr ⟨content.toList, ?_⟩
    dsimp only
    rcases loadProgram { s with romName := Files.baseName path } content.toList with ⟨t, e | -⟩
    · exact ⟨rfl, .refl t⟩
    · exact ⟨rfl, _, rfl⟩

theorem lasts_loadRom (s : System) (fs : Files) (path : String) :
    s.Lasts (s.loadRom fs path).1 := by
  rcases s.loadRom_cases fs path with ⟨same, -⟩ | ⟨program, -, alike⟩
  · rw [same]
    exact (Continues.refl s).toLasts
  · have named : s.Lasts { s with romName := Files.baseName path } := ⟨.refl _, rfl, rfl⟩
    exact (named.trans (lasts_loadProgram _ program)).trans alike.continues.toLasts

theorem continues_loadProgram {program : List UInt8}
    (refused : (s.loadProgram program).2 ≠ .ok ()) : s.Continues (s.loadProgram program).1 := by
  cases loaded : s.machine.memory.loadRom program with
  | error f => exact (loadProgram_of_error loaded).2.continues
  | ok memory => exact absurd (loadProgram_of_ok loaded).1 refused

theorem continues_loadRom {fs : Files} {path : String}
    (refused : (s.loadRom fs path).2 ≠ .ok ()) : s.Continues (s.loadRom fs path).1 := by
  rcases s.loadRom_cases fs path with ⟨same, -⟩ | ⟨program, answer, alike⟩
  · rw [same]
    exact .refl s
  · rw [answer] at refused
    have named : s.Continues { s with romName := Files.baseName path } :=
      ⟨⟨.refl _, rfl, rfl⟩, rfl, rfl⟩
    exact (named.trans (continues_loadProgram refused)).trans alike.continues

end System

/-! ## The requests -/

namespace Running

section
variable {P : System → Prop} {α β : Type} {run : Running α}

/-- A request that keeps a property of the system. -/
def Keeps (P : System → Prop) (run : Running α) : Prop :=
  ∀ h, P h.system → P (run.run h).2.system

theorem keeps_pure (a : α) : Keeps P (pure a) := fun _ holds => holds

theorem keeps_throw (e : Failure) : Keeps P (throw e : Running α) := fun _ holds => holds

theorem keeps_bind {next : α → Running β} (first : Keeps P run)
    (second : ∀ a, Keeps P (next a)) : Keeps P (run >>= next) := by
  intro h holds
  have after := first h holds
  rw [bind_run]
  rcases ran : run.run h with ⟨e | a, h'⟩ <;> rw [ran] at after
  · exact after
  · exact second a h' after

theorem keeps_ofExcept {result : Except Failure α} {next : α → Running β}
    (rest : ∀ a, result = .ok a → Keeps P (next a)) : Keeps P (ofExcept result >>= next) := by
  cases result with
  | error e => exact keeps_throw e
  | ok a => exact rest a rfl

theorem keeps_ofFault {result : Except Fault α} {next : α → Running β}
    (rest : ∀ a, result = .ok a → Keeps P (next a)) : Keeps P (ofFault result >>= next) := by
  cases result with
  | error f => exact keeps_throw (.fault f)
  | ok a => exact rest a rfl

end

/-- A request that a system outlasts with its program.  The system is a fixed one: what a request
reads of the machine it writes back later, when only its origin is known. -/
def Outlasted {α : Type} (s : System) (run : Running α) : Prop :=
  ∀ h, s.Continues h.system → s.Continues (run.run h).2.system

variable {s : System} {α β : Type} {run : Running α}

theorem outlasted_pure (a : α) : Outlasted s (pure a) := keeps_pure a

theorem outlasted_bind {next : α → Running β} (first : Outlasted s run)
    (second : ∀ a, Outlasted s (next a)) : Outlasted s (run >>= next) := keeps_bind first second

theorem outlasted_ofExcept {result : Except Failure α} {next : α → Running β}
    (rest : ∀ a, result = .ok a → Outlasted s (next a)) :
    Outlasted s (ofExcept result >>= next) := keeps_ofExcept rest

theorem outlasted_ofFault {result : Except Fault α} {next : α → Running β}
    (rest : ∀ a, result = .ok a → Outlasted s (next a)) :
    Outlasted s (ofFault result >>= next) := keeps_ofFault rest

/-- Who reads the machine reads one that the system's has become. -/
theorem outlasted_machine {next : Machine → Running β}
    (rest : ∀ m, s.machine.Becomes m → Outlasted s (next m)) : Outlasted s (machine >>= next) :=
  fun h continues => rest h.system.machine continues.machine h continues

theorem outlasted_setMachine {m : Machine} (becomes : s.machine.Becomes m) :
    Outlasted s (setMachine m) :=
  fun _ continues => ⟨⟨becomes, continues.clock, continues.keymap⟩, continues.program,
    continues.romLoaded⟩

theorem outlasted_modifyObservers (change : System → Observers → Observers) :
    Outlasted s (modifySystem fun s => s.mapObservers (change s)) :=
  fun h continues => continues.trans (h.system.mapObservers_alike _).symm.continues

theorem outlasted_note (records : List Record) : Outlasted s (note records) :=
  outlasted_modifyObservers fun _ o => o.addNotes records

theorem outlasted_observers (change : Observers → Observers) {next : Running β}
    (rest : Outlasted s next) : Outlasted s (do let o ← observers; setObservers (change o); next) :=
  fun h continues => rest { h with system := h.system.mapObservers change }
    (continues.trans (h.system.mapObservers_alike change).symm.continues)

theorem outlasted_noticeDirect (r : StepReport) : Outlasted s (noticeDirect false r) :=
  outlasted_modifyObservers fun s o => o.noticeUnknown r s.cycleCount

/-- A machine that becomes another, and the answer. -/
theorem outlasted_put {m : Machine} (becomes : s.machine.Becomes m) (reply : Reply) :
    Outlasted s (do setMachine m; return reply) :=
  outlasted_bind (outlasted_setMachine becomes) fun _ => outlasted_pure reply

end Running

open Running

variable {s : System}

theorem MemoryRequest.outlasted (q : MemoryRequest) : Outlasted s q.run := by
  refine outlasted_machine fun m becomes => ?_
  have put (memory : Memory) (shape : m.memory.SameShape memory)
      (intact : ∀ {size : Int}, m.memory.Intact size → memory.Intact size) :
      Outlasted s (do setMachine { m with memory }; return Reply.none) :=
    outlasted_put (becomes.trans (Machine.becomes_memory shape intact)) _
  cases q with
  | read address | readWord address => exact outlasted_ofFault fun _ _ => outlasted_pure _
  | write address value =>
    exact outlasted_ofFault fun memory written =>
      put memory (Memory.sameShape_write written) fun intact => intact.write written
  | writeBlock address data =>
    exact outlasted_ofFault fun memory written =>
      put memory (Memory.sameShape_writeBlock written) fun intact => intact.writeBlock written
  | loadRom program =>
    refine outlasted_ofFault fun memory loaded => outlasted_bind (outlasted_note _) fun _ => ?_
    exact put memory (Memory.sameShape_loadRom loaded) fun intact => intact.loadRom loaded
  | glyphAddress digit => exact outlasted_pure _
  | dump start length => exact outlasted_ofExcept fun _ _ => outlasted_pure _
  | reset =>
    refine outlasted_bind (outlasted_note _) fun _ => ?_
    exact put _ Memory.sameShape_reset fun intact => intact.reset

theorem RegistersRequest.outlasted (q : RegistersRequest) : Outlasted s q.run := by
  refine outlasted_machine fun m becomes => ?_
  have put (registers : Registers) (reply : Reply)
      (depth : registers.stackDepth = m.registers.stackDepth)
      (start : registers.programStart = m.registers.programStart) :
      Outlasted s (do setMachine { m with registers }; return reply) :=
    outlasted_put (becomes.trans (Machine.becomes_registers depth start)) reply
  cases q with
  | push address =>
    refine outlasted_ofFault fun registers pushed => ?_
    rw [Registers.push] at pushed
    split at pushed <;> cases pushed
    exact put _ _ rfl rfl
  | pop =>
    refine outlasted_ofFault fun popped taken => ?_
    rw [Registers.pop] at taken
    split at taken <;> cases taken
    exact put _ _ rfl rfl
  | poke position value =>
    refine outlasted_ofExcept fun registers poked => ?_
    rw [Registers.poke] at poked
    split at poked
    · cases poked
    split at poked <;> cases poked
    exact put _ _ rfl rfl
  | _ => exact put _ _ rfl rfl

theorem TimersRequest.outlasted (q : TimersRequest) : Outlasted s q.run := by
  refine outlasted_machine fun m becomes => ?_
  have put (timers : Timers) (reply : Reply) (rate : m.timers.SameRate timers) :
      Outlasted s (do setMachine { m with timers }; return reply) :=
    outlasted_put (becomes.trans (Machine.becomes_timers rate)) reply
  cases q with
  | tick => exact outlasted_bind (outlasted_note _) fun _ => put _ _ ⟨rfl, rfl⟩
  | update elapsed =>
    have passed := Machine.becomes_timers (Timers.sameRate_update m.timers elapsed)
    refine outlasted_bind (outlasted_setMachine (becomes.trans passed)) fun _ => ?_
    refine outlasted_ofExcept fun ticks _ => outlasted_bind (outlasted_note _) fun _ => ?_
    exact outlasted_pure _
  | _ => exact put _ _ ⟨rfl, rfl⟩

theorem KeypadRequest.outlasted (q : KeypadRequest) : Outlasted s q.run := by
  refine outlasted_machine fun m becomes => ?_
  have put (keypad : Keypad) (reply : Reply) :
      Outlasted s (do setMachine { m with keypad }; return reply) :=
    outlasted_put (becomes.trans (m.becomes_keypad keypad)) reply
  cases q with
  | press key =>
    exact outlasted_ofExcept fun _ _ => outlasted_bind (outlasted_note _) fun _ => put _ _
  | release key =>
    exact outlasted_ofExcept fun _ _ => outlasted_bind (outlasted_note _) fun _ => put _ _
  | setKeys states =>
    exact outlasted_ofExcept fun _ _ => outlasted_bind (outlasted_note _) fun _ => put _ _
  | isPressed number => exact outlasted_pure _
  | waitForKey => exact outlasted_bind (outlasted_note _) fun _ => put _ _
  | reset => exact put _ _

theorem DisplayRequest.outlasted (q : DisplayRequest) : Outlasted s q.run := by
  refine outlasted_machine fun m becomes => ?_
  have put (display : Display) (reply : Reply) (width : display.grid.width = m.display.grid.width)
      (height : display.grid.height = m.display.grid.height) :
      Outlasted s (do setMachine { m with display }; return reply) :=
    outlasted_put (becomes.trans (Machine.becomes_display width height)) reply
  cases q with
  | drawSprite x y sprite =>
    refine outlasted_ofExcept fun (display, hit) drawn => ?_
    obtain ⟨width, height⟩ := Display.drawSprite_dims drawn
    exact put display _ width height
  | getPixel x y => exact outlasted_ofExcept fun _ _ => outlasted_pure _
  | toAscii on off => exact outlasted_pure _
  | _ => exact put _ _ rfl rfl

/-- An instruction that was asked for directly. -/
theorem outlasted_direct {after : Machine} (becomes : s.machine.Becomes after)
    (lines : Journal → Journal) (result : Except Failure StepReport) {α : Type}
    (reply : StepReport → α) :
    Outlasted s (do
      let o ← observers
      setObservers { o with journal := lines o.journal }
      setMachine after
      let r ← ofExcept result
      noticeDirect false r
      return reply r) := by
  refine outlasted_observers (fun o => { o with journal := lines o.journal }) ?_
  refine outlasted_bind (outlasted_setMachine becomes) fun _ => outlasted_ofExcept fun r _ => ?_
  exact outlasted_bind (outlasted_noticeDirect r) fun _ => outlasted_pure _

theorem ProcessorRequest.outlasted (q : ProcessorRequest) : Outlasted s (q.run false) := by
  refine outlasted_machine fun m becomes => ?_
  cases q with
  | step =>
    refine outlasted_bind (outlasted_machine fun m becomes => ?_) fun _ => outlasted_pure _
    exact outlasted_direct (becomes.trans m.becomes_step) m.journalStep _ id
  | execute i address =>
    exact outlasted_direct (becomes.trans (m.becomes_execute i _)) (m.journalExecute i _) _ _
  | fetch => exact outlasted_ofExcept fun _ _ => outlasted_pure _
  | reset =>
    refine outlasted_bind (outlasted_note _) fun _ => outlasted_put (becomes.trans ?_) _
    exact ⟨⟨rfl, ⟨rfl, rfl⟩, rfl, rfl⟩, rfl, rfl, ⟨rfl, rfl⟩, id⟩

namespace System

variable {t : System}

/-! ## What happens to a system -/

def happen (s : System) : Happening → System
  | .asked files q => (s.ask files q).2
  | .watched change => s.mapObservers change

theorem run_last (s : System) (happenings : List Happening) :
    (s.run happenings).2 = happenings.foldl happen s := by
  induction happenings generalizing s with
  | nil => rfl
  | cons happening rest ih =>
    cases happening with
    | asked files q => exact ih (s.ask files q).2
    | watched change => exact ih (s.mapObservers change)

/-- A load of a program, from a file or not, that is granted. -/
def Loads (s : System) : Happening → Prop
  | .asked _ (.system (.loadProgram program)) => (s.loadProgram program).2 = .ok ()
  | .asked files (.system (.loadRom path)) => (s.loadRom files path).2 = .ok ()
  | _ => False

/-- There is such a load among what happens. -/
def LoadsIn (s : System) : List Happening → Prop
  | [] => False
  | happening :: rest => s.Loads happening ∨ (s.happen happening).LoadsIn rest

/-- A request to the system is served as by the system alone. -/
theorem ask_system (s : System) (files : Files) (q : SystemRequest) :
    (s.ask files (.system q)).2 = s.serve files q :=
  congrArg Host.system (run_request q { system := s, files })

theorem serve_continues (files : Files) (q : SystemRequest)
    (plain : ¬ s.Loads (.asked files (.system q))) : s.Continues (s.serve files q) := by
  cases q with
  | loadProgram program => exact continues_loadProgram plain
  | loadRom path => exact continues_loadRom plain
  | reset => exact s.continues_reset
  | step => exact s.continues_step
  | updateTimers elapsed => exact s.continues_updateTimers elapsed
  | runFor elapsed => exact s.continues_runFor elapsed
  | runCycles cycles => exact continues_runCyclesFrom cycles.toNat s #[]
  | pressKey key => exact s.continues_moveKey key true
  | releaseKey key => exact s.continues_moveKey key false
  | setKeys states => exact s.continues_setKeys states
  | pressHostKey name => exact s.continues_host (.moveHostKey name true)
  | releaseHostKey name => exact s.continues_host (.moveHostKey name false)

/-- **All but a granted load leaves the system its program**, and what lasts anyway. -/
theorem happen_continues {happening : Happening} (plain : ¬ s.Loads happening) :
    s.Continues (s.happen happening) := by
  cases happening with
  | watched change => exact (s.mapObservers_alike change).symm.continues
  | asked files q =>
    cases q with
    | system q =>
      rw [happen, ask_system]
      exact serve_continues files q plain
    | memory q => exact q.outlasted { system := s, files } (.refl s)
    | registers q => exact q.outlasted { system := s, files } (.refl s)
    | timers q => exact q.outlasted { system := s, files } (.refl s)
    | keypad q => exact q.outlasted { system := s, files } (.refl s)
    | display q => exact q.outlasted { system := s, files } (.refl s)
    | processor q => exact q.outlasted { system := s, files } (.refl s)

theorem happen_lasts (s : System) (happening : Happening) : s.Lasts (s.happen happening) := by
  by_cases loads : s.Loads happening
  · match happening, loads with
    | .asked files (.system (.loadProgram program)), _ =>
      rw [happen, ask_system]
      exact s.lasts_loadProgram program
    | .asked files (.system (.loadRom path)), _ =>
      rw [happen, ask_system]
      exact s.lasts_loadRom files path
  · exact (happen_continues loads).toLasts

theorem run_lasts (s : System) (happenings : List Happening) : s.Lasts (s.run happenings).2 := by
  rw [run_last]
  induction happenings generalizing s with
  | nil => exact (Continues.refl s).toLasts
  | cons happening rest ih => exact (s.happen_lasts happening).trans (ih (s.happen happening))

theorem run_continues (happenings : List Happening) (plain : ¬ s.LoadsIn happenings) :
    s.Continues (s.run happenings).2 := by
  rw [run_last]
  induction happenings generalizing s with
  | nil => exact .refl s
  | cons happening rest ih =>
    rw [LoadsIn, not_or] at plain
    exact (happen_continues plain.1).trans (ih plain.2)

end System
end ChipEight
