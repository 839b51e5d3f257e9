import ChipEight.Proofs.Turns
/-! # What a configuration settles for good

The size of the memory, the program start and the depth of the stack come from the configuration,
and nothing that happens to a system changes them (`Machine.Turned.sameLayout`).  So the program
that a reset loads fits whenever there is one (`System.Reachable.configured`), and no reset fails.
What turns keep under these conditions holds of every system that can be reached
(`System.Reachable.keeps`). -/

namespace ChipEight
namespace Memory

variable {m m' : Memory}

/-- Memories of one size, with programs at one place. -/
structure SameShape (m m' : Memory) : Prop where
  size : m'.size = m.size
  programStart : m'.programStart = m.programStart

theorem SameShape.capacity (same : SameShape m m') : m'.capacity = m.capacity := by
  rw [Memory.capacity, same.size, same.programStart, Memory.capacity]

theorem sameShape_write {address value : Int} (h : m.write address value = .ok m') :
    SameShape m m' := by
  rw [write] at h
  split at h
  · cases h
  split at h
  · cases h
  · cases h
    exact ⟨rfl, rfl⟩

theorem sameShape_writeBlock {address : Int} {data : List UInt8}
    (h : m.writeBlock address data = .ok m') : SameShape m m' := by
  by_cases none_ : data = []
  · subst none_
    cases h
    exact ⟨rfl, rfl⟩
  · obtain ⟨-, -, rfl⟩ := (writeBlock_ok_iff none_).mp h
    exact ⟨rfl, rfl⟩

theorem loadRom_fits {program : List UInt8} (h : m.loadRom program = .ok m') :
    program.length ≤ m.capacity := by
  rw [loadRom] at h
  split at h
  · cases h
  · rename_i fits
    exact Int.not_lt.mp fits

theorem sameShape_loadRom {program : List UInt8} (h : m.loadRom program = .ok m') :
    SameShape m m' := by
  rw [loadRom] at h
  split at h
  · cases h
  · cases h
    exact ⟨rfl, rfl⟩

theorem sameShape_reset : SameShape m m.reset := ⟨rfl, rfl⟩

/-- A new memory has the size that was asked for, and no program. -/
theorem create_ok {size programStart : Int} (h : create size programStart = .ok m) :
    0 ≤ size ∧
      m = ⟨size.toNat, programStart, blankRam size.toNat, 0, size_le_blankRam size.toNat⟩ := by
  rw [create] at h
  split at h
  · cases h
  · cases h
    exact ⟨by omega, rfl⟩

theorem loadRom_of_fits {program : List UInt8} (fits : program.length ≤ m.capacity) :
    ∃ loaded, m.loadRom program = .ok loaded := by
  rw [loadRom, if_neg (Int.not_lt.mpr fits)]
  exact ⟨_, rfl⟩

end Memory

namespace Machine

variable {m m' : Machine}

/-- Machines that are wired and laid out alike. -/
structure SameLayout (m m' : Machine) : Prop where
  wiring : m'.wiring = m.wiring
  memory : m.memory.SameShape m'.memory
  stackDepth : m'.registers.stackDepth = m.registers.stackDepth
  programStart : m'.registers.programStart = m.registers.programStart

theorem Outcome.sameLayout {address : Int} {op : Operation} {n : Next}
    (outcome : Outcome m address op m' n) : m.SameLayout m' := by
  cases outcome with
  | values frame =>
    rw [frame]
    exact ⟨rfl, ⟨rfl, rfl⟩, rfl, rfl⟩
  | stored written => exact ⟨rfl, Memory.sameShape_writeBlock written, rfl, rfl⟩
  | _ => exact ⟨rfl, ⟨rfl, rfl⟩, rfl, rfl⟩

theorem sameLayout_step (m : Machine) : m.SameLayout m.step.1 := by
  rcases m.step_cases with frame | ⟨w, after, n, -, outcome, machine⟩
  · rw [frame]
    exact ⟨rfl, ⟨rfl, rfl⟩, rfl, rfl⟩
  · rw [machine]
    obtain ⟨wiring, memory, stackDepth, programStart⟩ := outcome.sameLayout
    exact ⟨wiring, memory, stackDepth, programStart⟩

theorem sameLayout_restarted {memory : Memory} (same : m.memory.SameShape memory) :
    m.SameLayout (m.restarted memory) := ⟨rfl, same, rfl, rfl⟩

theorem Turned.sameLayout {p p' : List UInt8} (turned : m.Turned p m' p') : m.SameLayout m' := by
  cases turned with
  | host frame _ =>
    rw [frame]
    exact ⟨rfl, ⟨rfl, rfl⟩, rfl, rfl⟩
  | step => exact m.sameLayout_step
  | loaded ok => exact sameLayout_restarted (Memory.sameShape_loadRom ok)
  | reset _ => exact sameLayout_restarted Memory.sameShape_reset
  | reloaded ok =>
    obtain ⟨size, programStart⟩ := Memory.sameShape_loadRom ok
    exact sameLayout_restarted ⟨size, programStart⟩
  | broken _ _ => exact ⟨rfl, Memory.sameShape_reset, rfl, rfl⟩

/-- A machine that is laid out as its configuration says, with a program that fits. -/
structure Configured (config : MachineConfig) (m : Machine) (program : List UInt8) : Prop where
  wiring : m.wiring = {}
  size : m.memory.size = config.memorySize
  memoryStart : m.memory.programStart = config.programStart
  stackDepth : m.registers.stackDepth = config.stackDepth
  programStart : m.registers.programStart = config.programStart
  fits : program ≠ [] → program.length ≤ m.memory.capacity

variable {config : MachineConfig} {p p' : List UInt8}

theorem Configured.of_sameLayout (configured : Configured config m p) (same : m.SameLayout m')
    (fits : p' ≠ [] → p'.length ≤ m.memory.capacity) : Configured config m' p' where
  wiring := same.wiring.trans configured.wiring
  size := (congrArg _ same.memory.size).trans configured.size
  memoryStart := same.memory.programStart.trans configured.memoryStart
  stackDepth := same.stackDepth.trans configured.stackDepth
  programStart := same.programStart.trans configured.programStart
  fits some_ := by
    rw [same.memory.capacity]
    exact fits some_

theorem Configured.turned (configured : Configured config m p) (turned : m.Turned p m' p') :
    Configured config m' p' := by
  refine configured.of_sameLayout turned.sameLayout ?_
  cases turned with
  | loaded ok => exact fun _ => Memory.loadRom_fits ok
  | _ => exact configured.fits

/-- The program of a configured machine can always be loaded again. -/
theorem Configured.reloads (configured : Configured config m p) (some_ : p ≠ []) :
    ∃ memory, m.memory.reset.loadRom p = .ok memory := by
  refine Memory.loadRom_of_fits ?_
  rw [Memory.sameShape_reset.capacity]
  exact configured.fits some_

theorem Configured.parts (configured : Configured config m p) (part : Part) :
    m.wiring.has part = true := by
  rw [configured.wiring]
  cases part <;> rfl

end Machine

namespace System

variable {s : System} {config : MachineConfig}

theorem Fresh.configured (fresh : Fresh config s) : s.machine.Configured config s.program := by
  obtain ⟨nonneg, memory⟩ := Memory.create_ok fresh.memory
  refine ⟨fresh.wiring, ?_, ?_, ?_, ?_, fun some_ => absurd fresh.program some_⟩
  · rw [memory]
    exact Int.toNat_of_nonneg nonneg
  · rw [memory]
  · rw [fresh.registers]
    rfl
  · rw [fresh.registers]
    rfl

/-- **Every system that can be reached is laid out as its configuration says.** -/
theorem Reachable.configured (reach : Reachable config s) :
    s.machine.Configured config s.program :=
  reach.invariant (fun booted => (boot_fresh booted).configured) Machine.Configured.turned

/-- What holds at first, and is kept by the turns of a machine that is laid out as its configuration
says, holds of every system that can be reached. -/
theorem Reachable.keeps {P : Machine → Prop}
    (boot : ∀ {s : System}, Fresh config s → P s.machine)
    (step : ∀ {m m' p p'}, m.Configured config p → P m → m.Turned p m' p' → P m')
    (reach : Reachable config s) : P s.machine := by
  have kept := reach.invariant (P := fun m p => m.Configured config p ∧ P m)
    (fun booted => ⟨(boot_fresh booted).configured, boot (boot_fresh booted)⟩)
    (fun ⟨configured, holds⟩ turned => ⟨configured.turned turned, step configured holds turned⟩)
  exact kept.2

end System
end ChipEight
