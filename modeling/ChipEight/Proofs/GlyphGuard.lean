import ChipEight.Proofs.Layout
/-! # The glyphs stay where they are

Bytes are put into memory in four ways, and each keeps the number of the bytes and the glyphs below
the program start.  So, whatever is asked of a system and written into its memory, every digit finds
its glyph (`System.glyphs_guarded`). -/

namespace ChipEight

/-- Data over a place of its own length inside a sequence keeps the length of the sequence. -/
theorem size_splice_inside {xs data : Array UInt8} {first : Int} (h₀ : 0 ≤ first)
    (h : first + data.size ≤ xs.size) :
    (splice xs first (first + data.size) data).size = xs.size := by
  rw [splice_eq_ofFn h₀ h, Array.size_ofFn]

/-- Bytes that begin with the glyphs. -/
def GlyphsFirst (ram : Array UInt8) : Prop := ∀ i < glyphsEnd, ram[i]? = glyphRows[i]?

theorem GlyphsFirst.le_size {ram : Array UInt8} (first : GlyphsFirst ram) :
    glyphsEnd ≤ ram.size := by
  have last : ram[79]? = some 0x80 := first 79 (by decide)
  obtain ⟨inside, -⟩ := Array.getElem?_eq_some_iff.mp last
  exact inside

/-- Nothing that is put behind the glyphs touches them, wherever it lands. -/
theorem GlyphsFirst.splice {ram data : Array UInt8} {first last : Int} (glyphs : GlyphsFirst ram)
    (above : glyphsEnd ≤ first) : GlyphsFirst (splice ram first last data) := by
  intro i below
  have room := glyphs.le_size
  have start : glyphsEnd ≤ clampPosition ram.size first := by
    rw [clampPosition, if_neg (by omega)]
    omega
  have within := clampPosition_le ram.size first
  have kept : i < (ram.extract 0 (clampPosition ram.size first)).size := by
    rw [Array.size_extract]
    omega
  rw [ChipEight.splice, Array.append_assoc, Array.getElem?_append_left kept,
    Array.getElem?_extract, if_pos (by omega), Nat.zero_add]
  exact glyphs i below

theorem GlyphsFirst.set {ram : Array UInt8} {position : Nat} {byte : UInt8}
    (glyphs : GlyphsFirst ram) (above : glyphsEnd ≤ position) :
    GlyphsFirst (ram.setIfInBounds position byte) := by
  intro i below
  rw [Array.getElem?_setIfInBounds_ne (by omega)]
  exact glyphs i below

namespace Memory

variable {m m' : Memory} {size : Int}

/-- A memory of the size given, with no byte too many and the glyphs below the program start. -/
structure Intact (size : Int) (m : Memory) : Prop where
  size_eq : m.size = size
  above : glyphsEnd ≤ m.programStart
  inside : m.programStart ≤ m.size
  bytes : m.ram.size = m.size
  glyphs : GlyphsFirst m.ram

theorem Intact.room (intact : Intact size m) : glyphsEnd ≤ m.size := by
  have above := intact.above
  have inside := intact.inside
  omega

/-- What keeps the shape of a memory has only its bytes to keep. -/
theorem Intact.of_sameShape (intact : Intact size m) (same : SameShape m m')
    (bytes : m'.ram.size = m.ram.size) (glyphs : GlyphsFirst m'.ram) : Intact size m' where
  size_eq := by rw [same.size, intact.size_eq]
  above := by
    rw [same.programStart]
    exact intact.above
  inside := by
    rw [same.programStart, same.size]
    exact intact.inside
  bytes := by rw [bytes, intact.bytes, same.size]
  glyphs := glyphs

theorem Intact.write {address value : Int} (intact : Intact size m)
    (h : m.write address value = .ok m') : Intact size m' := by
  have same := sameShape_write h
  rw [Memory.write] at h
  split at h
  · cases h
  split at h
  · cases h
  · rename_i above
    cases h
    exact intact.of_sameShape same Array.size_setIfInBounds (intact.glyphs.set (by omega))

theorem Intact.writeBlock {address : Int} {data : List UInt8} (intact : Intact size m)
    (h : m.writeBlock address data = .ok m') : Intact size m' := by
  by_cases none_ : data = []
  · subst none_
    cases h
    exact intact
  have same := sameShape_writeBlock h
  obtain ⟨above, -, rfl⟩ := (writeBlock_ok_iff none_).mp h
  refine intact.of_sameShape same Array.size_ofFn fun i below => ?_
  have room := intact.glyphs.le_size
  have before : ¬ (address ≤ i ∧ (i : Int) < address + data.length) := by
    rw [glyphsEnd] at below
    omega
  rw [overwrite, Array.getElem?_ofFn, dif_pos (by omega), if_neg before]
  exact (Array.getElem?_eq_getElem _).symm.trans (intact.glyphs i below)

/-- Clearing the program's place makes the memory as long as it should be. -/
theorem size_clearedRam (low : 0 ≤ m.programStart) (inside : m.programStart ≤ m.size) :
    m.clearedRam.size = m.size := by
  have bound := m.size_le_ram
  rw [clearedRam, size_splice, Array.size_replicate, capacity,
    clampPosition_of_le low (by omega), clampPosition_of_le (by omega) (by omega)]
  omega

theorem Intact.size_clearedRam (intact : Intact size m) : m.clearedRam.size = m.ram.size := by
  have above := intact.above
  rw [Memory.size_clearedRam (by omega) intact.inside, intact.bytes]

theorem Intact.loadRom {program : List UInt8} (intact : Intact size m)
    (h : m.loadRom program = .ok m') : Intact size m' := by
  have same := sameShape_loadRom h
  have fits := loadRom_fits h
  have above := intact.above
  have inside := intact.inside
  have cleared := intact.size_clearedRam
  have bytes := intact.bytes
  rw [capacity] at fits
  rw [Memory.loadRom] at h
  split at h
  · cases h
  cases h
  refine intact.of_sameShape same ?_ ((intact.glyphs.splice above).splice above)
  have placed : m.programStart + program.toArray.size ≤ m.clearedRam.size := by
    rw [List.size_toArray]
    omega
  exact (size_splice_inside (by omega) placed).trans cleared

theorem size_blankRam {count : Nat} (room : glyphsEnd ≤ count) : (blankRam count).size = count := by
  have placed : (0 : Int) + glyphRows.size ≤ (Array.replicate count (0 : UInt8)).size := by
    rw [Array.size_replicate]
    exact_mod_cast (by omega : 0 + glyphsEnd ≤ count)
  exact (size_splice_inside (le_refl 0) placed).trans Array.size_replicate

theorem glyphsFirst_blankRam (count : Nat) : GlyphsFirst (blankRam count) := by
  intro i below
  have start : clampPosition (Array.replicate count (0 : UInt8)).size 0 = 0 :=
    clampPosition_of_le (le_refl 0) (Int.natCast_nonneg _)
  rw [blankRam, ChipEight.splice, start, Array.extract_zero, Array.empty_append]
  exact Array.getElem?_append_left below

theorem Intact.reset (intact : Intact size m) : Intact size m.reset :=
  intact.of_sameShape sameShape_reset
    ((size_blankRam intact.room).trans intact.bytes.symm) (glyphsFirst_blankRam m.size)

theorem intact_create {programStart : Int} (above : glyphsEnd ≤ programStart)
    (inside : programStart ≤ size) (h : create size programStart = .ok m) : Intact size m := by
  obtain ⟨nonneg, rfl⟩ := create_ok h
  have counted := Int.toNat_of_nonneg nonneg
  exact ⟨counted, above, inside.trans counted.ge, size_blankRam (by omega), glyphsFirst_blankRam _⟩

/-- The rows of a digit's glyph are read from its address on. -/
theorem Intact.read_glyph (intact : Intact size m) (digit : Int) {row : Nat}
    (inside : row < glyphHeight) : ∃ byte,
      glyphRows[5 * (digit % 16).toNat + row]? = some byte ∧
      m.read (glyphAddress digit + row) = .ok byte := by
  have place : glyphAddress digit + row = 5 * (digit % 16).toNat + row := rfl
  have below : glyphAddress digit + row < glyphsEnd := by
    rw [place, glyphsEnd]
    rw [glyphHeight] at inside
    omega
  have room := intact.room
  have held : m.Holds (glyphAddress digit + row) := ⟨by omega, by omega⟩
  have stored : m.ram[glyphAddress digit + row]? = some glyphRows[glyphAddress digit + row] :=
    (intact.glyphs _ below).trans (Array.getElem?_eq_getElem below)
  refine ⟨glyphRows[glyphAddress digit + row], Array.getElem?_eq_getElem below, ?_⟩
  rw [read, if_pos held, byteAt, ← Int.natCast_add, Int.toNat_natCast,
    Array.getD_eq_getD_getElem?, stored, Option.getD_some]

end Memory

namespace Machine

variable {m m' : Machine} {size : Int}

theorem Outcome.intact {address : Int} {op : Operation} {n : Next}
    (outcome : Outcome m address op m' n) (intact : m.memory.Intact size) :
    m'.memory.Intact size := by
  cases outcome with
  | values frame =>
    rw [frame]
    exact intact
  | stored written => exact intact.writeBlock written
  | _ => exact intact

/-- No turn moves a byte of a memory, and none touches the glyphs. -/
theorem Turned.intact {p p' : List UInt8} (intact : m.memory.Intact size)
    (turned : m.Turned p m' p') : m'.memory.Intact size := by
  cases turned with
  | host frame _ =>
    rw [frame]
    exact intact
  | step =>
    rcases m.step_cases with frame | ⟨w, after, n, -, outcome, machine⟩
    · rw [frame]
      exact intact
    · rw [machine]
      exact outcome.intact intact
  | loaded ok => exact intact.loadRom ok
  | reset _ | broken _ _ => exact intact.reset
  | reloaded ok => exact intact.reset.loadRom ok

end Machine

namespace System

variable {s : System} {config : MachineConfig}

/-- What is done to a system from outside: a request, or a write past the processor. -/
inductive Access where
  | serve (fs : Files) (q : SystemRequest)
  | write (address value : Int)
  | writeBlock (address : Int) (data : List UInt8)

/-- The system with a written memory, or as it was where the write is refused. -/
def written (s : System) : Except Fault Memory → System
  | .ok memory => { s with machine := { s.machine with memory } }
  | .error _ => s

def access (s : System) : Access → System
  | .serve fs q => s.serve fs q
  | .write address value => s.written (s.machine.memory.write address value)
  | .writeBlock address data => s.written (s.machine.memory.writeBlock address data)

theorem access_intact {size : Int} (access_ : Access) (intact : s.machine.memory.Intact size) :
    (s.access access_).machine.memory.Intact size := by
  cases access_ with
  | serve fs q =>
    rw [access, serve_turns]
    exact turns_invariant (P := fun m _ => m.memory.Intact size) Machine.Turned.intact _ intact
  | write address value =>
    rw [access]
    cases answer : s.machine.memory.write address value with
    | error f => exact intact
    | ok memory => exact intact.write answer
  | writeBlock address data =>
    rw [access]
    cases answer : s.machine.memory.writeBlock address data with
    | error f => exact intact
    | ok memory => exact intact.writeBlock answer

theorem accesses_intact {size : Int} (accesses : List Access)
    (intact : s.machine.memory.Intact size) :
    (accesses.foldl access s).machine.memory.Intact size := by
  induction accesses generalizing s with
  | nil => exact intact
  | cons access_ accesses ih => exact ih (access_intact access_ intact)

/-- **The glyphs are guarded.**  Whatever is asked of a system whose programs start above them, and
whatever is written into its memory, no byte is gained or lost and every digit finds its glyph. -/
theorem glyphs_guarded {o : Observers} (booted : (config.boot o).2 = .ok s)
    (above : 80 ≤ config.programStart) (inside : config.programStart ≤ config.memorySize)
    (accesses : List Access) :
    (accesses.foldl access s).machine.memory.ram.size = config.memorySize ∧
    (∀ i < 80, (accesses.foldl access s).machine.memory.ram[i]? = glyphRows[i]?) ∧
    ∀ (digit : Int) (row : Nat), row < 5 → ∃ byte,
      glyphRows[5 * (digit % 16).toNat + row]? = some byte ∧
      (accesses.foldl access s).machine.memory.read (Memory.glyphAddress digit + row) =
        .ok byte := by
  have intact := accesses_intact accesses
    (Memory.intact_create above inside (boot_fresh booted).memory)
  refine ⟨?_, intact.glyphs, fun digit row below => intact.read_glyph digit below⟩
  rw [intact.bytes, intact.size_eq]

/-- A write across the last glyph, and a program (`LD I, 0x04E`, `LD [I], VF`) that tries the
same. -/
def trespass : List Access :=
  [.writeBlock 0x4E [1, 2, 3, 4], .serve {} (.loadProgram [0xA0, 0x4E, 0xFF, 0x55]),
    .serve {} .step, .serve {} .step, .write 0x4F 1, .serve {} .reset]

theorem glyphs_guarded_trespass : ∃ s : System, (({} : MachineConfig).boot default).2 = .ok s ∧
    (trespass.foldl access s).machine.memory.ram.size = (4096 : Int) ∧
    (∀ i < 80, (trespass.foldl access s).machine.memory.ram[i]? = glyphRows[i]?) ∧
    ∀ (digit : Int) (row : Nat), row < 5 → ∃ byte,
      glyphRows[5 * (digit % 16).toNat + row]? = some byte ∧
      (trespass.foldl access s).machine.memory.read (Memory.glyphAddress digit + row) =
        .ok byte :=
  ⟨_, rfl, @glyphs_guarded _ {} default rfl (by decide) (by decide) trespass⟩

end System
end ChipEight
