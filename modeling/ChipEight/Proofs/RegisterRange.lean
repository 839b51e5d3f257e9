import ChipEight.Proofs.Layout
/-! # Where the registers can stand

In a memory of at most 65532 bytes no address that a run comes by needs more than sixteen bits
(`Machine.Turned.inRange`).  So the masks of the processor change nothing, and a program that leaves
the memory at its end stops there and does not come in again from below
(`System.registers_in_range`). -/

namespace ChipEight
namespace Machine

variable {m m' : Machine}

/-- The addresses in the registers are such as programs come by. -/
structure InRange (m : Machine) : Prop where
  pc_nonneg : 0 ≤ m.registers.pc
  pc_le : m.registers.pc ≤ max (m.memory.size + 2 : Int) 0x10FE
  index_nonneg : 0 ≤ m.registers.index
  index_le : m.registers.index ≤ 65535
  depth_le : m.registers.depth ≤ m.registers.stackDepth
  returns : ∀ address ∈ m.registers.stack, 2 ≤ address ∧ address ≤ m.memory.size

/-- Only the registers for addresses and the shape of memory and stack matter. -/
theorem InRange.of_same (range : m.InRange) (pc : m'.registers.pc = m.registers.pc)
    (index : m'.registers.index = m.registers.index)
    (stack : m'.registers.stack = m.registers.stack) (same : m.SameLayout m') : m'.InRange where
  pc_nonneg := by
    rw [pc]
    exact range.pc_nonneg
  pc_le := by
    rw [pc, same.memory.size]
    exact range.pc_le
  index_nonneg := by
    rw [index]
    exact range.index_nonneg
  index_le := by
    rw [index]
    exact range.index_le
  depth_le := by
    rw [Registers.depth, stack, same.stackDepth]
    exact range.depth_le
  returns := by
    rw [stack, same.memory.size]
    exact range.returns

/-- An operation that lies in memory goes on at an address that is in range. -/
theorem Outcome.address_range {w : Nat} {op : Operation} {n : Next} (range : m.InRange)
    (word : m.WordAt w) (outcome : Outcome m m.registers.pc op m' n) :
    0 ≤ n.address m.registers.pc ∧
      n.address m.registers.pc ≤ max (m.memory.size + 2 : Int) 0x10FE := by
  obtain ⟨⟨low, -⟩, ⟨-, high⟩, -⟩ := word
  cases outcome with
  | values _ next =>
    rcases next with rfl | rfl <;> simp only [Next.address, instructionSize] <;> omega
  | index _ _ | stored _ | key _ | park _ => simp only [Next.address, instructionSize]; omega
  | jump low high => simp only [Next.address]; omega
  | call small _ => simp only [Next.address]; omega
  | ret stack =>
    have := range.returns _ (stack ▸ List.mem_cons_self)
    simp only [Next.address]
    omega

theorem Outcome.inRange {w : Nat} {op : Operation} {n : Next} (range : m.InRange)
    (small : m.memory.size ≤ 65532) (word : m.WordAt w)
    (outcome : Outcome m m.registers.pc op m' n) : m'.InRange := by
  have same := outcome.sameLayout
  obtain ⟨⟨low, -⟩, ⟨-, high⟩, -⟩ := word
  cases outcome with
  | values frame next =>
    rw [frame] at same ⊢
    exact range.of_same rfl rfl rfl same
  | index low high =>
    exact { range with index_nonneg := low, index_le := Int.le_of_lt_add_one high }
  | call small room =>
    refine { range with depth_le := ?_, returns := ?_ }
    · simp only [Registers.depth, List.length_cons] at room ⊢
      omega
    · refine List.forall_mem_cons.mpr ⟨?_, range.returns⟩
      dsimp only
      omega
  | ret stack =>
    have depth := range.depth_le
    have returns := range.returns
    rw [Registers.depth, stack, List.length_cons] at depth
    rw [stack] at returns
    refine { range with depth_le := ?_, returns := (List.forall_mem_cons.mp returns).2 }
    simp only [Registers.depth]
    omega
  | _ => exact range.of_same rfl rfl rfl same

/-- Going on at an address that is in range needs no mask. -/
theorem mask_of_range {address : Int} (small : m.memory.size ≤ 65532)
    (range : 0 ≤ address ∧ address ≤ max (m.memory.size + 2 : Int) 0x10FE) :
    address % 65536 = address := by
  omega

theorem InRange.goesOn {address : Int} (range : m.InRange) (small : m.memory.size ≤ 65532)
    (next : 0 ≤ address ∧ address ≤ max (m.memory.size + 2 : Int) 0x10FE) :
    (m.goesOn address).InRange := by
  have pc : (m.goesOn address).registers.pc = address := mask_of_range small next
  exact { range with
    pc_nonneg := pc.symm ▸ next.1
    pc_le := pc.symm ▸ next.2 }

theorem InRange.step (range : m.InRange) (small : m.memory.size ≤ 65532) : m.step.1.InRange := by
  have same := m.sameLayout_step
  rcases m.step_cases with frame | ⟨w, after, n, word, outcome, machine⟩
  · rw [frame] at same ⊢
    exact range.of_same rfl rfl rfl same
  · rw [machine]
    have kept := outcome.sameLayout.memory.size
    refine (outcome.inRange range small word).goesOn (kept.symm ▸ small) ?_
    rw [kept]
    exact outcome.address_range range word

/-- Registers as they are at first are in range. -/
theorem inRange_created {stackDepth programStart : Int}
    (created : m.registers = .create stackDepth programStart) (low : 0 ≤ programStart)
    (high : programStart ≤ m.memory.size) (depth : 0 ≤ stackDepth) : m.InRange := by
  refine ⟨?_, ?_, ?_, ?_, ?_, ?_⟩ <;> rw [created] <;>
    simp only [Registers.create, Registers.depth, List.length_nil, List.not_mem_nil, false_imp_iff,
      implies_true] <;> omega

variable {config : MachineConfig} {p p' : List UInt8}

/-- **Every turn keeps the registers in range.** -/
theorem Turned.inRange (low : 0 ≤ config.programStart)
    (high : config.programStart ≤ config.memorySize) (small : config.memorySize ≤ 65532)
    (depth : 0 ≤ config.stackDepth) (configured : Configured config m p) (range : m.InRange)
    (turned : m.Turned p m' p') : m'.InRange := by
  have size := configured.size
  have restarted (memory : Memory) (same : m.memory.SameShape memory) :
      (m.restarted memory).InRange := by
    refine inRange_created (m := m.restarted memory) rfl ?_ ?_ ?_
    · rwa [configured.programStart]
    · have kept : ((m.restarted memory).memory.size : Int) = config.memorySize :=
        (congrArg Nat.cast same.size).trans size
      rwa [configured.programStart, kept]
    · rwa [configured.stackDepth]
  cases turned with
  | host frame _ =>
    rw [frame]
    exact range.of_same rfl rfl rfl ⟨rfl, ⟨rfl, rfl⟩, rfl, rfl⟩
  | step => exact range.step (by omega)
  | loaded ok => exact restarted _ (Memory.sameShape_loadRom ok)
  | reset _ => exact restarted _ Memory.sameShape_reset
  | reloaded ok =>
    obtain ⟨size, programStart⟩ := Memory.sameShape_loadRom ok
    exact restarted _ ⟨size, programStart⟩
  | broken _ _ => exact range.of_same rfl rfl rfl ⟨rfl, Memory.sameShape_reset, rfl, rfl⟩

/-! ## Past the end of memory -/

/-- At the end of memory and behind it there is nothing to fetch. -/
theorem step_past_end (part : m.wiring.has .memory = true) (low : 0 ≤ m.registers.pc)
    (past : m.memory.size ≤ m.registers.pc + 1) :
    m.step = (m, .error (.fault (Memory.outside (max m.registers.pc m.memory.size)))) := by
  have unread : m.memory.readWord m.registers.pc =
      .error (Memory.outside (max m.registers.pc m.memory.size)) := by
    rw [Memory.readWord_error_iff low]
    by_cases inside : m.memory.size ≤ m.registers.pc
    · exact .inl ⟨inside, by rw [max_eq_left inside]⟩
    · have last : m.registers.pc + 1 = m.memory.size := by omega
      exact .inr ⟨last, by rw [max_eq_right (by omega), last]⟩
  simp only [step, part, not_true_eq_false, if_false, fetchWord, if_true, unread]

end Machine

namespace System

variable {s : System} {config : MachineConfig}

/-- Every system that can be reached has its registers in range. -/
theorem Reachable.inRange (low : 0 ≤ config.programStart)
    (high : config.programStart ≤ config.memorySize) (small : config.memorySize ≤ 65532)
    (depth : 0 ≤ config.stackDepth) (reach : Reachable config s) : s.machine.InRange := by
  refine reach.keeps (fun fresh => ?_) (Machine.Turned.inRange low high small depth)
  exact Machine.inRange_created fresh.registers low (high.trans fresh.configured.size.ge) depth

/-- A system whose registers are in range. -/
structure RegistersInRange (config : MachineConfig) (s : System) : Prop where
  pc_nonneg : 0 ≤ s.machine.registers.pc
  pc_le : s.machine.registers.pc ≤ max (config.memorySize + 2) 0x10FE
  index_nonneg : 0 ≤ s.machine.registers.index
  index_le : s.machine.registers.index ≤ 65535
  depth_le : s.machine.registers.stack.length ≤ config.stackDepth
  returns : ∀ address ∈ s.machine.registers.stack, 2 ≤ address ∧ address ≤ config.memorySize
  values : ∀ x, (s.machine.registers.get x).toNat ≤ 255
  delay : s.machine.timers.delay.toNat ≤ 255
  sound : s.machine.timers.sound.toNat ≤ 255

/-- A system that comes by no address that a mask would change, and that stops where the memory
ends. -/
structure NeverWraps (config : MachineConfig) (s : System) : Prop where
  /-- The address that an instruction goes on at is not masked. -/
  goes_on : ∀ {w after n}, s.machine.WordAt w →
    s.machine.perform s.machine.registers.pc (Operation.ofWord w) = (after, .ok n) →
    n.address s.machine.registers.pc % 65536 = n.address s.machine.registers.pc
  /-- Nor is the address that a call pushes. -/
  pushes : ∀ {w}, s.machine.WordAt w →
    (s.machine.registers.pc + 2) % 65536 = s.machine.registers.pc + 2
  /-- There is nothing to fetch where the memory ends. -/
  stops : config.memorySize ≤ s.machine.registers.pc + 1 →
    s.step.2 = .error (.fault (Memory.outside (max s.machine.registers.pc config.memorySize)))
  /-- A program that goes on there gets the fault at its next step. -/
  leaves : ∀ {w after n}, s.machine.WordAt w →
    s.machine.perform s.machine.registers.pc (Operation.ofWord w) = (after, .ok n) →
    config.memorySize ≤ n.address s.machine.registers.pc + 1 →
    s.step.1.machine.registers.pc = n.address s.machine.registers.pc ∧
    s.step.1.step.2 = .error (.fault
      (Memory.outside (max (n.address s.machine.registers.pc) config.memorySize)))

theorem stops_past_end (configured : s.machine.Configured config s.program)
    (range : s.machine.InRange) (past : config.memorySize ≤ s.machine.registers.pc + 1) :
    s.step.2 =
      .error (.fault (Memory.outside (max s.machine.registers.pc config.memorySize))) := by
  rw [← configured.size] at past ⊢
  rw [step_of_fault (Machine.step_past_end (configured.parts .memory) range.pc_nonneg past)]

/-- What the range of the registers says about the steps from it. -/
theorem neverWraps (small : config.memorySize ≤ 65532)
    (configured : s.machine.Configured config s.program) (range : s.machine.InRange)
    (after : s.step.1.machine.Configured config s.step.1.program)
    (range' : s.step.1.machine.InRange) : s.NeverWraps config := by
  have size := configured.size
  have fits : s.machine.memory.size ≤ 65532 := by omega
  have unmasked {w after n} (word : s.machine.WordAt w)
      (performed : s.machine.perform s.machine.registers.pc (Operation.ofWord w) =
        (after, .ok n)) :
      n.address s.machine.registers.pc % 65536 = n.address s.machine.registers.pc := by
    have denoted := (denotes_iff word.lt).mpr (rfl : Operation.ofWord w = _)
    have outcome : Machine.Outcome _ s.machine.registers.pc _ after n :=
      Machine.perform_outcome denoted.bounded performed
    exact Machine.mask_of_range fits (outcome.address_range range word)
  refine ⟨unmasked, ?_, stops_past_end configured range, ?_⟩
  · rintro w ⟨⟨low, -⟩, ⟨-, high⟩, -⟩
    omega
  · intro w after_ n word performed past
    have stepped := Machine.step_of_word (configured.parts .memory) word
    obtain ⟨r, executed⟩ := (Machine.execute_ok_iff (i := ⟨w, Operation.ofWord w⟩)).mpr
      ⟨after_, n, performed, rfl⟩
    have pc : s.step.1.machine.registers.pc = n.address s.machine.registers.pc := by
      rw [step_machine, stepped, executed]
      exact unmasked word performed
    refine ⟨pc, ?_⟩
    rw [← pc] at past ⊢
    exact stops_past_end after range' past

/-- **Registers stay in range**, and addresses never wrap around. -/
theorem registers_in_range (above : 80 ≤ config.programStart)
    (inside : config.programStart ≤ config.memorySize) (small : config.memorySize ≤ 65532)
    (depth : 0 ≤ config.stackDepth) (reach : Reachable config s) :
    s.RegistersInRange config ∧ s.NeverWraps config := by
  have low : 0 ≤ config.programStart := by omega
  have configured := reach.configured
  have range := reach.inRange low inside small depth
  have stepped := reach.turn .step
  refine ⟨?_, neverWraps small configured range stepped.configured
    (stepped.inRange low inside small depth)⟩
  have size := configured.size
  have byte (b : UInt8) : b.toNat ≤ 255 := Nat.le_of_lt_succ b.toNat_lt
  exact {
    pc_nonneg := range.pc_nonneg
    pc_le := by
      rw [← size]
      exact range.pc_le
    index_nonneg := range.index_nonneg
    index_le := range.index_le
    depth_le := by
      rw [← configured.stackDepth]
      exact range.depth_le
    returns := by
      rw [← size]
      exact range.returns
    values := fun x => byte _
    delay := byte _
    sound := byte _ }

/-- A program (`JP 0xFFE`) that runs over the end of memory: load it, jump, and go on twice. -/
def overEnd : List Turn := [.loadProgram [0x1F, 0xFE], .step, .step, .step]

theorem registers_in_range_overEnd : ∃ s : System, (({} : MachineConfig).boot default).2 = .ok s ∧
    (overEnd.foldl turn s).RegistersInRange {} ∧ (overEnd.foldl turn s).NeverWraps {} :=
  ⟨_, rfl, registers_in_range (by decide) (by decide) (by decide) (by decide)
    (Reachable.turns (.boot rfl) overEnd)⟩

end System
end ChipEight
