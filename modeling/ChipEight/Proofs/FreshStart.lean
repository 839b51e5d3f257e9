import ChipEight.Proofs.Continuity
/-! # Starting afresh

What a load leaves in memory is told byte by byte (`Memory.getElem?_loadRom`): the program
and zeros from the program start on, and below it whatever was there.  A reset clears that as well,
so it makes of any system, however worn, one that has just been put together and given the same
program (`System.reset_starts_afresh`).  A load makes of two systems the same only if they agreed on
the bytes between the glyphs and the program start (`System.loads_agree_iff`). -/

namespace ChipEight

/-- Data over a place of its own length inside a sequence, element by element. -/
theorem getElem?_splice {xs data : Array UInt8} {first : Int} (h₀ : 0 ≤ first)
    (h : first + data.size ≤ xs.size) (i : Nat) :
    (splice xs first (first + data.size) data)[i]? =
      if first ≤ i ∧ i < first + data.size then data[(i - first).toNat]? else xs[i]? := by
  rw [splice_eq_ofFn h₀ h, Array.getElem?_ofFn]
  by_cases held : i < xs.size
  · rw [dif_pos held]
    by_cases inside : first ≤ i ∧ i < first + data.size
    · have within : (i - first).toNat < data.size := by omega
      rw [if_pos inside, if_pos inside, Array.getD_eq_getD_getElem?,
        Array.getElem?_eq_getElem within, Option.getD_some]
    · rw [if_neg inside, if_neg inside, Array.getElem?_eq_getElem held]
      rfl
  · rw [dif_neg held, if_neg (by omega), Array.getElem?_eq_none (by omega)]

/-- Data over everything from a place on. -/
theorem getElem?_splice_end {xs data : Array UInt8} {first : Int} (h₀ : 0 ≤ first)
    (h : first ≤ xs.size) (i : Nat) : (splice xs first xs.size data)[i]? =
      if (i : Int) < first then xs[i]? else data[(i - first).toNat]? := by
  have whole : clampPosition xs.size xs.size = xs.size :=
    clampPosition_of_le (Int.natCast_nonneg _) (le_refl _)
  have start : first.toNat ≤ xs.size := by omega
  have nothing : xs.extract xs.size xs.size = #[] := by simp
  rw [splice, clampPosition_of_le h₀ h, whole, max_eq_right start, nothing, Array.append_empty,
    Array.getElem?_append, Array.size_extract, Array.getElem?_extract]
  by_cases below : (i : Int) < first
  · rw [if_pos (by omega), if_pos below, if_pos (by omega), Nat.zero_add]
  · rw [if_neg (by omega), if_neg below]
    congr 1
    omega

namespace Memory

variable {m m' loaded : Memory} {size : Int} {program : List UInt8}

theorem SameShape.reset_eq (same : SameShape m m') : m'.reset = m.reset := by
  obtain ⟨size, programStart, ram, romSize, bound⟩ := m
  obtain ⟨size', programStart', ram', romSize', bound'⟩ := m'
  obtain ⟨rfl, rfl⟩ := same
  rfl

theorem loadRom_romSize (h : m.loadRom program = .ok loaded) : loaded.romSize = program.length := by
  rw [loadRom] at h
  split at h <;> cases h
  rfl

theorem reset_created {programStart : Int} (created : create size programStart = .ok m) :
    m.reset = m := by
  obtain ⟨-, rfl⟩ := create_ok created
  rfl

/-- Memories of one shape with the same bytes and a program of the same length. -/
theorem eq_of_bytes (same : SameShape m m') (rom : m'.romSize = m.romSize)
    (bytes : ∀ i : Nat, m'.ram[i]? = m.ram[i]?) : m' = m := by
  obtain ⟨size, programStart, ram, romSize, bound⟩ := m
  obtain ⟨size', programStart', ram', romSize', bound'⟩ := m'
  obtain ⟨rfl, rfl⟩ := same
  obtain rfl : romSize' = romSize := rom
  obtain rfl : ram' = ram := Array.ext_getElem? bytes
  rfl

/-! ## Byte by byte -/

section
variable (low : 0 ≤ m.programStart) (inside : m.programStart ≤ m.size)
include low inside

theorem getElem?_clearedRam (i : Nat) :
    m.clearedRam[i]? =
      if (i : Int) < m.programStart then m.ram[i]? else if i < m.size then some 0 else none := by
  have bound := m.size_le_ram
  rw [clearedRam, getElem?_splice_end low (by omega)]
  by_cases below : (i : Int) < m.programStart
  · rw [if_pos below, if_pos below]
  rw [if_neg below, if_neg below, Array.getElem?_replicate, capacity]
  by_cases held : i < m.size
  · rw [if_pos held, if_pos (by omega)]
  · rw [if_neg held, if_neg (by omega)]

/-- **What a load leaves in memory**: the program and zeros behind it from the program start on, and
below it what was there. -/
theorem getElem?_loadRom (h : m.loadRom program = .ok loaded) (i : Nat) : loaded.ram[i]? =
    if (i : Int) < m.programStart then m.ram[i]?
    else if i < m.size then some (program.getD (i - m.programStart).toNat 0) else none := by
  have fits := loadRom_fits h
  have cleared := size_clearedRam low inside
  rw [Memory.loadRom, if_neg (Int.not_lt.mpr fits)] at h
  cases h
  rw [capacity] at fits
  have placed : m.programStart + program.toArray.size ≤ m.clearedRam.size := by
    rw [List.size_toArray]
    omega
  have ram := getElem?_splice low placed i
  rw [List.size_toArray, getElem?_clearedRam low inside] at ram
  dsimp only
  rw [ram]
  by_cases below : (i : Int) < m.programStart
  · rw [if_neg (by omega), if_pos below, if_pos below]
  by_cases inside : (i : Int) < m.programStart + program.length
  · have within : (i - m.programStart).toNat < program.length := by omega
    rw [if_pos (by omega), if_neg below, if_pos (by omega), List.getElem?_toArray,
      List.getD_eq_getElem?_getD, List.getElem?_eq_getElem within, Option.getD_some]
  · have past : program[(i - m.programStart).toNat]? = none :=
      List.getElem?_eq_none (by omega)
    rw [if_neg (by omega), if_neg below, if_neg below, List.getD_eq_getElem?_getD, past,
      Option.getD_none]

end

theorem Intact.getElem?_loadRom (intact : Intact size m) (h : m.loadRom program = .ok loaded)
    (i : Nat) : loaded.ram[i]? =
      if (i : Int) < m.programStart then m.ram[i]?
      else if i < m.size then some (program.getD (i - m.programStart).toNat 0) else none := by
  have above := intact.above
  exact Memory.getElem?_loadRom (by omega) intact.inside h i

/-- Zeros stand between the glyphs and the end of a blank memory. -/
theorem getElem?_blankRam {count i : Nat} (above : glyphsEnd ≤ i) (inside : i < count) :
    (blankRam count)[i]? = some 0 := by
  have placed : (0 : Int) + glyphRows.size ≤ (Array.replicate count (0 : UInt8)).size := by
    rw [Array.size_replicate]
    exact_mod_cast (by omega : 0 + glyphsEnd ≤ count)
  have blank : blankRam count =
      splice (Array.replicate count 0) 0 (0 + (glyphRows.size : Int)) glyphRows := rfl
  have behind : ¬ ((0 : Int) ≤ i ∧ (i : Int) < 0 + glyphRows.size) := by
    rw [show glyphRows.size = glyphsEnd from rfl]
    omega
  rw [blank, getElem?_splice (le_refl 0) placed, if_neg behind, Array.getElem?_replicate,
    if_pos inside]

/-- The empty program leaves an empty memory. -/
theorem Intact.reset_loadRom_nil (intact : Intact size m) :
    m.reset.loadRom [] = .ok m.reset := by
  have inside := intact.inside
  have above := intact.above
  have fits : (([] : List UInt8).length : Int) ≤ m.reset.capacity := by
    rw [sameShape_reset.capacity, capacity]
    exact Int.sub_nonneg.mpr inside
  obtain ⟨loaded, h⟩ := loadRom_of_fits fits
  rw [h, eq_of_bytes (sameShape_loadRom h) (loadRom_romSize h) fun i => ?_]
  rw [intact.reset.getElem?_loadRom h]
  split
  · rfl
  · rename_i behind
    have behind : m.programStart ≤ i := Int.not_lt.mp behind
    have blank : m.reset.ram.size = m.size := size_blankRam intact.room
    by_cases held : i < m.size
    · exact (if_pos held).trans (getElem?_blankRam (by omega) held).symm
    · exact (if_neg held).trans (Array.getElem?_eq_none (by omega)).symm

/-! ## Two loads -/

section
variable {loaded' : Memory} (intact : Intact size m) (intact' : Intact size m')
  (same : SameShape m m') (h : m.loadRom program = .ok loaded)
  (h' : m'.loadRom program = .ok loaded')
include intact intact' same h h'

/-- Below the program start two loads agree where the memories agreed, and nowhere else. -/
theorem Intact.loads_below {i : Nat} (below : i < m.programStart) :
    loaded'.ram[i]? = loaded.ram[i]? ↔ m'.ram[i]? = m.ram[i]? := by
  have below' : (i : Int) < m'.programStart := by rwa [same.programStart]
  rw [intact.getElem?_loadRom h, intact'.getElem?_loadRom h', if_pos below, if_pos below']

theorem Intact.loads_outside {i : Nat} (outside : i < 80 ∨ m.programStart ≤ i) :
    loaded'.ram[i]? = loaded.ram[i]? := by
  have above := intact.above
  by_cases below : (i : Int) < m.programStart
  · have glyph : i < glyphsEnd := by
      rw [glyphsEnd] at above ⊢
      omega
    rw [intact.loads_below intact' same h h' below, intact'.glyphs i glyph, intact.glyphs i glyph]
  · rw [intact.getElem?_loadRom h, intact'.getElem?_loadRom h', same.programStart, same.size,
      if_neg below, if_neg below]

/-- Loads of one program agree if and only if the memories agreed between the glyphs and the program
start. -/
theorem Intact.loads_eq_iff :
    loaded' = loaded ↔ ∀ i : Nat, 80 ≤ i → i < m.programStart → m'.ram[i]? = m.ram[i]? := by
  constructor
  · rintro rfl i - below
    exact (intact.loads_below intact' same h h' below).mp rfl
  · intro agree
    have shape := sameShape_loadRom h
    have shape' := sameShape_loadRom h'
    refine eq_of_bytes ⟨?_, ?_⟩ ((loadRom_romSize h').trans (loadRom_romSize h).symm) fun i => ?_
    · rw [shape'.size, same.size, shape.size]
    · rw [shape'.programStart, same.programStart, shape.programStart]
    by_cases between : 80 ≤ i ∧ (i : Int) < m.programStart
    · exact (intact.loads_below intact' same h h' between.2).mpr (agree i between.1 between.2)
    · exact intact.loads_outside intact' same h h' (by omega)

end

end Memory

namespace Machine

variable {m m' : Machine}

/-- What a machine begins with is settled by what lasts of it, the memory and the random source. -/
theorem Becomes.restarted (becomes : m.Becomes m') (memory : Memory) :
    m'.restarted memory = { m.restarted memory with source := m'.source } := by
  obtain ⟨⟨wiring, -, depth, start⟩, width, height, ⟨rate, interval⟩, -⟩ := becomes
  simp only [Machine.restarted, resetProcessor, Registers.reset, Display.reset, Timers.reset,
    wiring, depth, start, width, height, rate, interval]

end Machine

namespace System

variable {s t : System} {config : MachineConfig} {program : List UInt8}

/-- Systems that differ at most in the random source, the program's name and the observers. -/
def SameButSource (s t : System) : Prop := ∃ source name o,
  t = { s with machine := { s.machine with source }, romName := name, observers := o }

theorem SameButSource.symm (same : s.SameButSource t) : t.SameButSource s := by
  obtain ⟨source, name, o, rfl⟩ := same
  exact ⟨s.machine.source, s.romName, s.observers, rfl⟩

theorem SameButSource.trans {u : System} (first : s.SameButSource t) (second : t.SameButSource u) :
    s.SameButSource u := by
  obtain ⟨source, name, o, rfl⟩ := first
  obtain ⟨source', name', o', rfl⟩ := second
  exact ⟨source', name', o', rfl⟩

/-- A system begins with a program as the one that it has come from. -/
theorem Lasts.begun (lasts : s.Lasts t) (memory : Memory) (program : List UInt8)
    (o o' : Observers) : (s.begun memory program o).SameButSource (t.begun memory program o') := by
  refine ⟨t.machine.source, t.romName, o', ?_⟩
  rw [System.begun, System.begun, lasts.machine.restarted, lasts.clock, lasts.keymap]

/-- A program that fits can be loaded, whatever has happened. -/
theorem Lasts.loads (lasts : s.Lasts t) (fits : program.length ≤ s.machine.memory.capacity) :
    ∃ memory, t.machine.memory.loadRom program = .ok memory := by
  rw [← lasts.machine.memory.capacity] at fits
  exact Memory.loadRom_of_fits fits

theorem Lasts.sameShape {u : System} (lasts : s.Lasts t) (lasts' : s.Lasts u) :
    t.machine.memory.SameShape u.machine.memory where
  size := lasts'.machine.memory.size.trans lasts.machine.memory.size.symm
  programStart := lasts'.machine.memory.programStart.trans lasts.machine.memory.programStart.symm

/-! ## Resets -/

/-- A reset of a system that has come from a new one begins as a load into a new one. -/
theorem Lasts.reset {memory : Memory} {size : Int} (lasts : s.Lasts t)
    (new : s.machine.memory.reset = s.machine.memory) (intact : s.machine.memory.Intact size)
    (loaded : s.machine.memory.loadRom t.program = .ok memory) (given : t.romLoaded = true) :
    t.reset.2 = .ok () ∧ ∃ o, t.reset.1 = t.begun memory t.program o := by
  have blank : t.machine.memory.reset = s.machine.memory :=
    lasts.machine.memory.reset_eq.trans new
  have start : t.startMemory = .ok memory := by
    rw [startMemory, blank]
    split
    · -- without a program a reset loads nothing, which is as good as loading the empty program
      rename_i empty
      have nothing := intact.reset_loadRom_nil
      rw [new, ← List.isEmpty_iff.mp empty] at nothing
      exact nothing.symm.trans loaded
    · exact loaded
  obtain ⟨done, o, left⟩ := reset_of_ok start
  refine ⟨done, o, left.trans ?_⟩
  rw [System.begun, given]

/-! ## New systems -/

/-- With other observers a configuration makes the same system. -/
theorem boot_again {o : Observers} (booted : (config.boot o).2 = .ok s) (o' : Observers) :
    ∃ new, (config.boot o').2 = .ok new ∧ s.Alike new := by
  rcases boot_alike config o o' with ⟨e, failed, -⟩ | ⟨s', new, booted₁, booted₂, alike⟩
  · rw [booted] at failed
    cases failed
  · rw [booted] at booted₁
    cases booted₁
    exact ⟨new, booted₂, alike⟩

theorem boot_capacity {o : Observers} (booted : (config.boot o).2 = .ok s) :
    s.machine.memory.capacity = config.memorySize - config.programStart := by
  obtain ⟨nonneg, memory⟩ := Memory.create_ok (boot_fresh booted).memory
  rw [memory, Memory.capacity, Int.toNat_of_nonneg nonneg]

/-- **A reset is a fresh load.**  Whatever happens to a system before it is given a program that
fits, and after that until the next load: a reset makes of it what a new system of the same
configuration is after it was given the program. -/
theorem reset_starts_afresh {o o' : Observers} (booted : (config.boot o).2 = .ok s)
    (above : 80 ≤ config.programStart) (inside : config.programStart ≤ config.memorySize)
    (fits : program.length ≤ config.memorySize - config.programStart)
    (before after : List Happening)
    (plain : ¬ ((s.run before).2.loadProgram program).1.LoadsIn after) :
    ((s.run before).2.loadProgram program).2 = .ok () ∧
    ∃ new, (config.boot o').2 = .ok new ∧ (new.loadProgram program).2 = .ok () ∧
      (((s.run before).2.loadProgram program).1.run after).2.reset.2 = .ok () ∧
      (new.loadProgram program).1.SameButSource
        (((s.run before).2.loadProgram program).1.run after).2.reset.1 := by
  have created := (boot_fresh booted).memory
  have intact := Memory.intact_create above inside created
  rw [← boot_capacity booted] at fits
  obtain ⟨new, booted', o₀, rfl⟩ := boot_again booted o'
  have used := s.run_lasts before
  obtain ⟨memory, loaded⟩ := Memory.loadRom_of_fits fits
  obtain ⟨memory₁, loaded₁⟩ := used.loads fits
  obtain ⟨done₁, o₁, begun₁⟩ := loadProgram_of_ok loaded₁
  obtain ⟨done, o₂, begun⟩ := loadProgram_of_ok (s := s.watchedBy o₀) loaded
  refine ⟨done₁, _, booted', done, ?_⟩
  -- the worn system still has the program, and all that lasts of the first one
  have later := run_continues after plain
  have worn := (used.trans (lasts_loadProgram _ program)).trans later.toLasts
  generalize (((s.run before).2.loadProgram program).1.run after).2 = t at later worn
  rw [begun₁] at later
  have kept : t.program = program := later.program
  subst kept
  obtain ⟨reset, o₃, begun₃⟩ :=
    worn.reset (Memory.reset_created created) intact loaded later.romLoaded
  refine ⟨reset, ?_⟩
  rw [begun, begun₃]
  exact worn.begun memory t.program o₂ o₃

/-- A machine of 96 bytes, two of them between the glyphs and the program start. -/
def small : MachineConfig := { memorySize := 96, programStart := 82 }

/-- Puts 0x77 at address 0x050 (`LD I, 0x050`, `LD V0, 0x77`, `LD [I], V0`). -/
def leaves : List Happening := [
  .asked {} (.system (.loadProgram [0xA0, 0x50, 0x60, 0x77, 0xF0, 0x55])),
  .asked {} (.system .step), .asked {} (.system .step), .asked {} (.system .step)]

/-- Reads what stands there (`LD I, 0x050`, `LD V0, [I]`). -/
def seeks : List UInt8 := [0xA0, 0x50, 0xF0, 0x65]

/-- A write over the program, a load that is refused, and two steps, the second of which fails. -/
def wear : List Happening := [
  .asked {} (.memory (.writeBlock 0x54 [0x00, 0xEE])),
  .asked {} (.system (.loadProgram (List.replicate 15 0))),
  .asked {} (.system .step), .asked {} (.system .step)]

theorem reset_starts_afresh_wear : ∃ s : System, (small.boot default).2 = .ok s ∧
    ¬ ((s.run leaves).2.loadProgram seeks).1.LoadsIn wear ∧
    ((s.run leaves).2.loadProgram seeks).2 = .ok () ∧
    ∃ new, (small.boot default).2 = .ok new ∧ (new.loadProgram seeks).2 = .ok () ∧
      (((s.run leaves).2.loadProgram seeks).1.run wear).2.reset.2 = .ok () ∧
      (new.loadProgram seeks).1.SameButSource
        (((s.run leaves).2.loadProgram seeks).1.run wear).2.reset.1 := by
  obtain ⟨s, booted⟩ : ∃ s, (small.boot default).2 = .ok s := ⟨_, rfl⟩
  have plain : ¬ ((s.run leaves).2.loadProgram seeks).1.LoadsIn wear := by
    simp only [wear, LoadsIn, Loads, false_or, or_false]
    intro granted
    have lasts := (s.run_lasts leaves).trans (lasts_loadProgram _ seeks)
    have room := loadProgram_fits granted
    rw [(lasts.trans (happen_lasts _ _)).machine.memory.capacity, boot_capacity booted] at room
    exact absurd room (by decide)
  exact ⟨s, booted, plain, reset_starts_afresh booted (by decide) (by decide) (by decide) leaves
    wear plain⟩

/-! ## Loads -/

/-- Two systems that have come from one begin with a program alike, but for their memories. -/
theorem Lasts.begun_iff {t' : System} {memory memory' : Memory} {o o' : Observers}
    (lasts : s.Lasts t) (lasts' : s.Lasts t') :
    (t.begun memory program o).SameButSource (t'.begun memory' program o') ↔ memory' = memory := by
  constructor
  · rintro ⟨source, name, o₁, same⟩
    exact congrArg (·.machine.memory) same
  · rintro rfl
    exact (lasts.begun memory' program s.observers o).symm.trans
      (lasts'.begun memory' program s.observers o')

/-- **Two loads agree exactly if the memories agreed between the glyphs and the program start.**
Whatever has happened to two systems of one configuration, a program that fits is granted to both,
and they differ afterwards in no part but the memory, and there in no byte outside this range. -/
theorem loads_agree_iff {o o' : Observers} (booted : (config.boot o).2 = .ok s)
    (booted' : (config.boot o').2 = .ok t) (above : 80 ≤ config.programStart)
    (inside : config.programStart ≤ config.memorySize)
    (fits : program.length ≤ config.memorySize - config.programStart)
    (past past' : List Happening) :
    let a := (s.run past).2.loadProgram program
    let b := (t.run past').2.loadProgram program
    a.2 = .ok () ∧ b.2 = .ok () ∧
    { a.1 with machine := { a.1.machine with memory := b.1.machine.memory } }.SameButSource b.1 ∧
    (∀ i : Nat, i < 80 ∨ config.programStart ≤ i →
      b.1.machine.memory.ram[i]? = a.1.machine.memory.ram[i]?) ∧
    (a.1.SameButSource b.1 ↔ ∀ i : Nat, 80 ≤ i → i < config.programStart →
      (t.run past').2.machine.memory.ram[i]? = (s.run past).2.machine.memory.ram[i]?) := by
  -- both have come from one new system, as observers are no part of what lasts
  obtain ⟨new, booted₁, alike⟩ := boot_again booted o'
  rw [booted'] at booted₁
  cases booted₁
  have created := (boot_fresh booted).memory
  have start : s.machine.memory.programStart = config.programStart := by
    rw [(Memory.create_ok created).2]
  have intact := Memory.intact_create above inside created
  have lasts := s.run_lasts past
  have lasts' := alike.continues.toLasts.trans (t.run_lasts past')
  rw [← boot_capacity booted] at fits
  generalize (s.run past).2 = u at lasts
  generalize (t.run past').2 = v at lasts'
  obtain ⟨memory, loaded⟩ := lasts.loads fits
  obtain ⟨memory', loaded'⟩ := lasts'.loads fits
  obtain ⟨done, o₁, begun⟩ := loadProgram_of_ok loaded
  obtain ⟨done', o₂, begun'⟩ := loadProgram_of_ok loaded'
  have same := lasts.sameShape lasts'
  have start : u.machine.memory.programStart = config.programStart :=
    lasts.machine.memory.programStart.trans start
  have intact₁ := lasts.machine.intact intact
  have intact₂ := lasts'.machine.intact intact
  intro a b
  refine ⟨done, done', ?_, fun i outside => ?_, ?_⟩
  · rw [begun, begun']
    exact (lasts.begun_iff lasts').mpr rfl
  · rw [begun, begun']
    exact intact₁.loads_outside intact₂ same loaded loaded' (start.symm ▸ outside)
  · rw [begun, begun', lasts.begun_iff lasts', intact₁.loads_eq_iff intact₂ same loaded loaded',
      start]

theorem loads_agree_iff_leaves : ∃ s : System, (small.boot default).2 = .ok s ∧
    let a := (s.run leaves).2.loadProgram seeks
    let b := (s.run []).2.loadProgram seeks
    a.2 = .ok () ∧ b.2 = .ok () ∧
    { a.1 with machine := { a.1.machine with memory := b.1.machine.memory } }.SameButSource b.1 ∧
    (∀ i : Nat, i < 80 ∨ (82 : Int) ≤ i →
      b.1.machine.memory.ram[i]? = a.1.machine.memory.ram[i]?) ∧
    (a.1.SameButSource b.1 ↔ ∀ i : Nat, 80 ≤ i → (i : Int) < 82 →
      (s.run []).2.machine.memory.ram[i]? = (s.run leaves).2.machine.memory.ram[i]?) := by
  obtain ⟨s, booted⟩ : ∃ s, (small.boot default).2 = .ok s := ⟨_, rfl⟩
  exact ⟨s, booted,
    loads_agree_iff booted booted (by decide) (by decide) (by decide) leaves []⟩

/-- **A load does not make a machine forget.**  A byte that one program leaves below the program
start is there for the next, which finds another value there on a new machine. -/
theorem load_remembers : ∃ s : System, (small.boot default).2 = .ok s ∧
    let a := (s.run leaves).2.loadProgram seeks
    let b := (s.run []).2.loadProgram seeks
    a.2 = .ok () ∧ b.2 = .ok () ∧ a.1.machine.memory.ram ≠ b.1.machine.memory.ram ∧
    a.1.step.1.step.1.machine.registers.get 0 = 0x77 ∧
    b.1.step.1.step.1.machine.registers.get 0 = 0 := by
  obtain ⟨s, booted⟩ : ∃ s, (small.boot default).2 = .ok s := ⟨_, rfl⟩
  have granted (past : List Happening) : ((s.run past).2.loadProgram seeks).2 = .ok () := by
    obtain ⟨memory, loaded⟩ := (s.run_lasts past).loads
      (boot_capacity booted ▸ (by decide : (seeks.length : Int) ≤ 96 - 82))
    exact (loadProgram_of_ok loaded).1
  refine ⟨s, booted, granted leaves, granted [], ?_, ?_, ?_⟩ <;> cases booted <;> decide +kernel

end System
end ChipEight
