import ChipEight.Describe
import ChipEight.Proofs.Loading
/-! # Loads that fail

A load from a file fails if the file cannot be read, and then nothing has happened, or if the
program is too long, and then nothing is loaded; but by that time the system has taken the name of
the file (`System.loadRom_fails`).  So the name that a host is shown can be that of a program that
was never in memory (`System.failed_load_renames`). -/

namespace ChipEight.System

variable {s t : System} {fs : Files} {path : String} {e : Failure} {content : ByteArray}

/-! ## The name of the program -/

/-- A reset does not ask for the name. -/
theorem reset_named (s : System) (name : String) :
    { s with romName := name }.reset = ({ s.reset.1 with romName := name }, s.reset.2) := by
  by_cases empty : s.program.isEmpty = true
  · simp only [reset, addNotes, mapObservers, empty]
    rfl
  · simp only [reset, addNotes, mapObservers, empty]
    cases s.machine.memory.reset.loadRom s.program <;> rfl

theorem resets_named (s : System) (name : String) (o : Observers) :
    Agree ({ s.reset.1 with romName := name }, s.reset.2)
      { s with romName := name, observers := o }.reset := by
  rw [← reset_named]
  exact blind_reset _ _ ⟨o, rfl⟩

/-- A host is shown the name. -/
theorem describe_named (s : System) (name : String) (o : Observers) :
    { s with romName := name, observers := o }.describe = s.describe ↔ name = s.romName := by
  constructor
  · intro same
    simp only [describe, Datum.record, List.map_cons, Datum.dict.injEq, List.cons.injEq,
      Prod.mk.injEq, Datum.text.injEq] at same
    exact same.2.1.2
  · rintro rfl
    rfl

/-! ## Loads from files -/

theorem loadRom_of_unreadable {missing : FileError} (h : fs.read path = .error missing) :
    s.loadRom fs path = (s, .error (.file missing)) := by
  rw [loadRom, h]

/-- A program that fits is loaded under its name. -/
theorem loadRom_of_fits (there : fs.read path = .ok content)
    (fits : content.toList.length ≤ s.machine.memory.capacity) :
    ∃ t, s.loadRom fs path = (t, .ok ()) ∧ t.romName = Files.baseName path ∧
      t.program = content.toList ∧
      t.machine.memory.capacity = s.machine.memory.capacity := by
  obtain ⟨memory, loaded⟩ := Memory.loadRom_of_fits fits
  obtain ⟨o, granted⟩ := loadRom_of_ok there loaded
  exact ⟨_, granted, rfl, rfl, (Memory.sameShape_loadRom loaded).capacity⟩

theorem loadRom_of_refused (there : fs.read path = .ok content)
    (refused : { s with romName := Files.baseName path }.loadProgram content.toList =
      (t, .error e)) : s.loadRom fs path = (t, .error e) := by
  rw [loadRom, there]
  dsimp only
  rw [refused]

/-- A program that is too long is turned down under its name. -/
theorem loadRom_of_large (there : fs.read path = .ok content)
    (large : s.machine.memory.capacity < content.toList.length) :
    ∃ t, s.loadRom fs path =
        (t, .error (.fault (.romTooLarge content.toList.length s.machine.memory.capacity))) ∧
      { s with romName := Files.baseName path }.TurnsDown
        (.romTooLarge content.toList.length s.machine.memory.capacity) t := by
  obtain ⟨t, refused, turnsDown⟩ := loadProgram_turnsDown
    (s := { s with romName := Files.baseName path }) rfl (Memory.loadRom_of_large large)
  exact ⟨t, loadRom_of_refused there refused, turnsDown⟩

/-- What a load from a file that fails leaves of a system. -/
structure FailsToLoad (s : System) (fs : Files) (path : String) (t : System) (e : Failure) :
    Prop where
  /-- Only the name can be another; what the observers are told is in `cause`. -/
  frame : t = { s with romName := t.romName, observers := t.observers }
  /-- A reset does what it would have done, under the name that is left. -/
  resets : Agree ({ s.reset.1 with romName := t.romName }, s.reset.2) t.reset
  cause : (∃ missing, fs.read path = .error missing ∧ e = .file missing ∧ t = s) ∨
    ∃ content f, fs.read path = .ok content ∧
      s.machine.memory.capacity < content.toList.length ∧
      f = .romTooLarge content.toList.length s.machine.memory.capacity ∧ e = .fault f ∧
      { s with romName := Files.baseName path }.TurnsDown f t
  /-- A host sees the failure by the name alone. -/
  shown : t.describe = s.describe ↔ t.romName = s.romName

/-- **A failed load leaves a system as it was but for the name**, and the name too if the file could
not be read. -/
theorem loadRom_fails (failed : s.loadRom fs path = (t, .error e)) :
    s.FailsToLoad fs path t e := by
  cases there : fs.read path with
  | error missing =>
    rw [loadRom_of_unreadable there] at failed
    cases failed
    exact ⟨rfl, s.resets_named _ _, .inl ⟨missing, there, rfl, rfl⟩, iff_of_true rfl rfl⟩
  | ok content =>
    by_cases large : s.machine.memory.capacity < content.toList.length
    · obtain ⟨t', refused, turnsDown⟩ := loadRom_of_large there large
      rw [refused] at failed
      cases failed
      obtain ⟨o, rfl⟩ := turnsDown.alike
      exact ⟨rfl, s.resets_named _ o, .inr ⟨content, _, there, large, rfl, rfl, turnsDown⟩,
        s.describe_named _ o⟩
    · obtain ⟨t', granted, -⟩ := loadRom_of_fits there (Int.not_lt.mp large)
      rw [granted] at failed
      cases failed

/-- After a file that could be read its name is left. -/
theorem FailsToLoad.romName_of_read (fails : s.FailsToLoad fs path t e)
    (there : fs.read path = .ok content) : t.romName = Files.baseName path := by
  rcases fails.cause with ⟨missing, unread, -⟩ | ⟨_, f, -, -, -, -, turnsDown⟩
  · rw [there] at unread
    cases unread
  · obtain ⟨o, rfl⟩ := turnsDown.alike
    rfl

/-- A program of six bytes, and one that is a byte too long for `small`. -/
def shelf : Files where
  entries := [(["seeks"], .file ⟨seeks.toArray⟩), (["large"], .file ⟨Array.replicate 15 0⟩)]

theorem read_large : shelf.read "large" = .ok ⟨Array.replicate 15 0⟩ := by
  decide +kernel

theorem read_seeks : shelf.read "seeks" = .ok ⟨seeks.toArray⟩ := by
  decide +kernel

theorem loadRom_large (capacity : s.machine.memory.capacity = 14) :
    ∃ t, s.loadRom shelf "large" = (t, .error (.fault (.romTooLarge 15 14))) := by
  have length : (⟨Array.replicate 15 0⟩ : ByteArray).toList.length = 15 := by decide +kernel
  obtain ⟨t, refused, -⟩ := loadRom_of_large read_large (s := s) (by omega)
  rw [length, capacity] at refused
  exact ⟨t, refused⟩

theorem loadRom_fails_large : ∃ s t : System, (small.boot default).2 = .ok s ∧
    s.loadRom shelf "large" = (t, .error (.fault (.romTooLarge 15 14))) ∧
    s.FailsToLoad shelf "large" t (.fault (.romTooLarge 15 14)) := by
  obtain ⟨s, booted⟩ : ∃ s, (small.boot default).2 = .ok s := ⟨_, rfl⟩
  obtain ⟨t, failed⟩ := loadRom_large (boot_capacity booted)
  exact ⟨s, t, booted, failed, loadRom_fails failed⟩

/-- **The name can be that of a program that was never loaded.**  After a program is loaded and
another is turned down, a host is shown the length of the one and the name of the other. -/
theorem failed_load_renames : ∃ s t u : System, (small.boot default).2 = .ok s ∧
    s.loadRom shelf "seeks" = (t, .ok ()) ∧
    t.loadRom shelf "large" = (u, .error (.fault (.romTooLarge 15 14))) ∧
    t.romName = "seeks" ∧ u.romName = "large" ∧ t.program = seeks ∧ u.program = seeks ∧
    u.describe ≠ t.describe := by
  obtain ⟨s, booted⟩ : ∃ s, (small.boot default).2 = .ok s := ⟨_, rfl⟩
  have room : s.machine.memory.capacity = 14 := boot_capacity booted
  have content : (⟨seeks.toArray⟩ : ByteArray).toList = seeks := by decide +kernel
  have fits : (⟨seeks.toArray⟩ : ByteArray).toList.length ≤ s.machine.memory.capacity := by
    rw [content, room]
    decide
  obtain ⟨t, granted, before, program, same⟩ := loadRom_of_fits read_seeks fits
  rw [content] at program
  obtain ⟨u, failed⟩ := loadRom_large (same.trans room)
  have fails := loadRom_fails failed
  have after := fails.romName_of_read read_large
  refine ⟨s, t, u, booted, granted, failed, before, after, program, ?_, ?_⟩
  · rw [fails.frame]
    exact program
  · rw [Ne, fails.shown, before, after]
    decide

end ChipEight.System
