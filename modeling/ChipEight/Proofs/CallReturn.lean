import ChipEight.Proofs.Stepping
/-! # Calls and returns

`Machine.perform_stack` says which operations touch the stack of return addresses, and
`System.Moves.stack` the same of whatever happens to a system: a step, or the host's keys and time.
By induction along the moves (`System.Excursion.under`) the return address of a call, which is kept
modulo 65536, stays where it is until the stack is as deep as before the call; what makes it so is
the return to that address. -/

namespace ChipEight
namespace Machine

variable {m s : Machine}

/-! ## The operations -/

theorem storeBlock_stack {data : List UInt8} {n : Next} (h : m.storeBlock data = (s, .ok n)) :
    s.registers.stack = m.registers.stack := by
  rw [storeBlock] at h
  split at h <;> cases h
  rfl

theorem drawRows_stack {x y : Reg} {rows : Nat} {n : Next}
    (h : m.drawRows x y rows = (s, .ok n)) : s.registers.stack = m.registers.stack := by
  obtain ⟨_, _, _, -, -, rfl, -⟩ := drawRows_returns h
  rfl

/-- What an operation does to the stack: a call stacks the address behind the instruction, a return
takes the top off and goes there, and nothing else touches it. -/
def StackEffect (m : Machine) (address : Int) (s : Machine) (n : Next) : Operation → Prop
  | .call _ => s.registers.stack = (address + 2) % 65536 :: m.registers.stack
  | .ret => ∃ target, m.registers.stack = target :: s.registers.stack ∧ n = .goto target
  | _ => s.registers.stack = m.registers.stack

theorem perform_stack {address : Int} {op : Operation} {n : Next}
    (h : m.perform address op = (s, .ok n)) : m.StackEffect address s n op := by
  cases op with
  | ret =>
    rw [perform, Registers.pop] at h
    cases stack : m.registers.stack <;> rw [stack] at h <;> cases h
    exact ⟨_, stack, rfl⟩
  | call target =>
    rw [perform, Registers.push] at h
    split at h
    · cases h
    · rename_i r pushed
      split at pushed <;> cases pushed
      cases h
      rfl
  | draw x y rows => exact drawRows_stack h
  | digits x | store x =>
    rw [perform] at h
    exact storeBlock_stack (withPart_ok h)
  | fetch x =>
    rw [perform] at h
    rcases fetched : fetchRegs m.memory m.registers (regsThrough x) with ⟨r, result⟩
    have loaded := withPart_ok h
    rw [fetched] at loaded
    cases loaded
    have same : r.stack = m.registers.stack := by rw [fetchRegs_index fetched]
    exact same
  | waitKey x =>
    rw [perform] at h
    have waited := withPart_ok h
    split at waited <;> cases waited <;> rfl
  | clear | skipPressed x | skipReleased x | readDelay x | setDelay x | setSound x | glyph x =>
    rw [perform] at h
    cases withPart_ok h
    rfl
  | _ =>
    cases h
    rfl

end Machine

namespace System

/-! ## The moves of a system -/

/-- The return addresses, the latest first. -/
def stack (s : System) : List Int := s.machine.registers.stack

def pc (s : System) : Int := s.machine.registers.pc

/-- A step that returns and whose word denotes the operation. -/
def Executes (s : System) (op : Operation) (t : System) : Prop :=
  ∃ w r, s.machine.WordAt w ∧ Denotes w op ∧ s.step = (t, .ok r)

/-- What the host may do between steps: anything to the keypad and the timers, and nothing to the
rest of the machine. -/
def HostMoves (s t : System) : Prop :=
  t.machine = { s.machine with keypad := t.machine.keypad, timers := t.machine.timers }

def Moves (s t : System) : Prop := (∃ r, s.step = (t, .ok r)) ∨ s.HostMoves t

variable {s t : System}

/-! ### The host -/

theorem moveKey_hostMoves (s : System) (key : Datum) (down : Bool) :
    s.HostMoves (s.moveKey key down).1 := by
  rw [moveKey]
  split <;> rfl

theorem setKeys_hostMoves (s : System) (states : List Bool) : s.HostMoves (s.setKeys states).1 := by
  rw [setKeys]
  split <;> rfl

theorem updateTimers_hostMoves (s : System) (elapsed : Number) :
    s.HostMoves (s.updateTimers elapsed).1 := by
  rw [updateTimers]
  split
  · rfl
  · dsimp only
    split <;> rfl

/-- What the host can ask of a system between two steps: to bring a key down or up. -/
inductive HostAction where
  | moveKey (key : Datum) (down : Bool)
  | setKeys (states : List Bool)
  | moveHostKey (name : Datum) (down : Bool)
  | updateTimers (elapsed : Number)

def host (s : System) : HostAction → System
  | .moveKey key down => (s.moveKey key down).1
  | .setKeys states => (s.setKeys states).1
  | .moveHostKey name down => (s.moveHostKey name down).1
  | .updateTimers elapsed => (s.updateTimers elapsed).1

/-- A host key moves the key that it is bound to. -/
theorem moveHostKey_cases (s : System) (name : Datum) (down : Bool) :
    (s.moveHostKey name down).1 = s ∨
      ∃ key, (s.moveHostKey name down).1 = (s.moveKey key down).1 := by
  rw [moveHostKey]
  cases s.boundKey name with
  | none => exact .inl rfl
  | some key =>
    right
    refine ⟨key, ?_⟩
    dsimp only
    rcases s.moveKey key down with ⟨t, e | -⟩ <;> rfl

/-- All that a host can do comes down to moving a key, setting all keys, or letting time pass. -/
theorem host_cases {P : System → Prop} (same : P s)
    (moveKey : ∀ key down, P (s.moveKey key down).1) (setKeys : ∀ states, P (s.setKeys states).1)
    (updateTimers : ∀ elapsed, P (s.updateTimers elapsed).1) (action : HostAction) :
    P (s.host action) := by
  cases action with
  | moveKey key down => exact moveKey key down
  | setKeys states => exact setKeys states
  | updateTimers elapsed => exact updateTimers elapsed
  | moveHostKey name down =>
    rw [host]
    rcases s.moveHostKey_cases name down with unbound | ⟨key, moved⟩
    · rwa [unbound]
    · rw [moved]
      exact moveKey key down

theorem host_hostMoves (s : System) (action : HostAction) : s.HostMoves (s.host action) :=
  host_cases (P := s.HostMoves) rfl s.moveKey_hostMoves s.setKeys_hostMoves
    s.updateTimers_hostMoves action

/-! ### The stack -/

/-- What a move may do to the stack: nothing, or to grow it by an entry, or, by a return, to shrink
it by one. -/
theorem Moves.stack (move : s.Moves t) : t.stack = s.stack ∨ (∃ entry, t.stack = entry :: s.stack) ∨
    ∃ entry, s.stack = entry :: t.stack ∧ s.Executes .ret t ∧ t.pc = entry % 65536 := by
  rcases move with ⟨r, stepped⟩ | host
  · obtain ⟨w, after, n, word, performed, machine⟩ :=
      Machine.step_performed (machine_step_of_ok stepped)
    have stack : t.stack = after.registers.stack := by rw [System.stack, machine]; rfl
    have effect := Machine.perform_stack performed
    have denoted := (denotes_iff word.lt).mpr (rfl : Operation.ofWord w = _)
    cases operation : Operation.ofWord w with
    | call target =>
      rw [operation] at effect
      exact .inr (.inl ⟨_, stack.trans effect⟩)
    | ret =>
      rw [operation] at effect denoted
      obtain ⟨target, top, rfl⟩ := effect
      refine .inr (.inr ⟨target, ?_, ⟨w, r, word, denoted, stepped⟩, ?_⟩)
      · rw [stack]
        exact top
      · rw [pc, machine]
        rfl
    | _ =>
      rw [operation] at effect
      exact .inl (stack.trans effect)
  · left
    rw [System.stack, host]
    rfl

/-- A call pushes the address of the following instruction. -/
theorem Executes.call {target : Nat} (call : s.Executes (.call target) t) :
    t.stack = (s.pc + 2) % 65536 :: s.stack := by
  obtain ⟨w, r, word, denoted, stepped⟩ := call
  obtain ⟨v, after, n, other, performed, machine⟩ :=
    Machine.step_performed (machine_step_of_ok stepped)
  obtain rfl := other.unique word
  rw [(denotes_iff word.lt).mp denoted] at performed
  rw [stack, machine]
  exact Machine.perform_stack performed

/-! ## Between a call and its return -/

/-- A run that begins with a call, and at whose end the stack is for the first time as deep again
as before the call. -/
structure Excursion (σ : Nat → System) (n : Nat) : Prop where
  call : ∃ target, (σ 0).Executes (.call target) (σ 1)
  moves : ∀ k, 0 < k → k ≤ n → (σ k).Moves (σ (k + 1))
  away : ∀ k, 0 < k → k ≤ n → (σ k).stack.length ≠ (σ 0).stack.length
  back : (σ (n + 1)).stack.length = (σ 0).stack.length

variable {σ : Nat → System} {n : Nat}

/-- A move above an entry stays above it, or it is the return to the entry. -/
theorem Moves.above {entry : Int} {rest : List Int} (move : s.Moves t)
    (above : ∃ ext, s.stack = ext ++ entry :: rest) :
    (∃ ext, t.stack = ext ++ entry :: rest) ∨
      t.stack = rest ∧ s.Executes .ret t ∧ t.pc = entry % 65536 := by
  obtain ⟨ext, stacked⟩ := above
  rcases move.stack with same | ⟨top, pushed⟩ | ⟨top, popped, returned, pc⟩
  · exact .inl ⟨ext, same.trans stacked⟩
  · exact .inl ⟨top :: ext, by rw [pushed, stacked]; rfl⟩
  · rw [stacked] at popped
    cases ext with
    | nil =>
      -- nothing lies above the entry any more
      obtain ⟨rfl, rfl⟩ := List.cons.inj popped
      exact .inr ⟨rfl, returned, pc⟩
    | cons _ ext => exact .inl ⟨ext, (List.cons.inj popped).2.symm⟩

/-- Until the stack is as deep again as before the call, the call's entry lies in it. -/
theorem Excursion.under (run : Excursion σ n) {k : Nat} (later : 0 < k) (within : k ≤ n) :
    ∃ ext, (σ k).stack = ext ++ ((σ 0).pc + 2) % 65536 :: (σ 0).stack := by
  induction k with
  | zero => omega
  | succ k ih =>
    rcases Nat.eq_zero_or_pos k with rfl | positive
    · -- the call itself has put the entry on top
      obtain ⟨target, call⟩ := run.call
      exact ⟨[], call.call⟩
    · have move := run.moves k positive (by omega)
      rcases move.above (ih positive (by omega)) with above | ⟨popped, -⟩
      · exact above
      · -- the entry's own return would end the run here
        exact absurd (congrArg List.length popped) (run.away (k + 1) later within)

/-- **A call comes back to the instruction behind it**: when the stack is as deep again as before
the call, a return has just been executed, the stack is the same entry for entry, and the program
counter is behind the call.  Until then the stack of the call lies below its entry. -/
theorem call_returns (run : Excursion σ n) :
    (σ n).Executes .ret (σ (n + 1)) ∧ (σ (n + 1)).stack = (σ 0).stack ∧
      (σ (n + 1)).pc = ((σ 0).pc + 2) % 65536 ∧
      ∀ k, 0 < k → k ≤ n →
        ∃ ext, (σ k).stack = ext ++ ((σ 0).pc + 2) % 65536 :: (σ 0).stack := by
  have deeper : ∀ t : System, t.stack.length = (σ 0).stack.length →
      ¬ ∃ ext, t.stack = ext ++ ((σ 0).pc + 2) % 65536 :: (σ 0).stack := by
    rintro t same ⟨ext, stacked⟩
    have length := congrArg List.length stacked
    simp only [List.length_append, List.length_cons] at length
    omega
  have positive : 0 < n := by
    rcases Nat.eq_zero_or_pos n with rfl | positive
    · obtain ⟨target, call⟩ := run.call
      exact absurd ⟨[], call.call⟩ (deeper _ run.back)
    · exact positive
  have move := run.moves n positive (Nat.le_refl n)
  rcases move.above (run.under positive (Nat.le_refl n)) with above | ⟨stack, returned, pc⟩
  · exact absurd above (deeper _ run.back)
  · exact ⟨returned, stack, by omega, fun k later within => run.under later within⟩

/-! ### A call in the last word -/

theorem executes_of_perform {w : Nat} {op : Operation} {after : Machine} {n : Next}
    (part : s.machine.wiring.has .memory = true) (word : s.machine.WordAt w) (denoted : Denotes w op)
    (performed : s.machine.perform s.pc op = (after, .ok n)) :
    ∃ t, s.Executes op t ∧ t.machine = after.goesOn (n.address s.pc) := by
  have stepped : ∃ r, s.machine.step = (after.goesOn (n.address s.pc), .ok r) := by
    rw [Machine.step_of_word part word, (denotes_iff word.lt).mp denoted, Machine.execute_ok_iff]
    exact ⟨after, n, performed, rfl⟩
  obtain ⟨r, stepped⟩ := stepped
  have whole : ∃ t, s.step = (t, .ok r) ∧ t.machine = after.goesOn (n.address s.pc) := by
    rw [step, stepped]
    exact ⟨_, rfl, rfl⟩
  obtain ⟨t, stepped, machine⟩ := whole
  exact ⟨t, ⟨w, r, word, denoted, stepped⟩, machine⟩

/-- A run that comes through three systems and stays in the last. -/
def through (s t u : System) : Nat → System
  | 0 => s
  | 1 => t
  | _ => u

/-- A call of a routine that returns at once. -/
theorem excursion_of_words {target : Nat} (part : s.machine.wiring.has .memory = true)
    (room : s.stack.length < s.machine.registers.stackDepth) (small : target < 0x1000)
    (call : s.machine.WordAt (0x2000 + target)) (first : s.machine.memory.Holds target)
    (second : s.machine.memory.Holds (target + 1))
    (ret : 0x00EE = 256 * (s.machine.memory.byteAt target).toNat +
      (s.machine.memory.byteAt (target + 1)).toNat) :
    ∃ σ : Nat → System, σ 0 = s ∧ Excursion σ 1 := by
  have free : ¬ s.machine.registers.stackDepth ≤ s.machine.registers.stack.length :=
    Int.not_le.mpr room
  have called : s.machine.perform s.pc (.call target) = ({ s.machine with
      registers := { s.machine.registers with stack := (s.pc + 2) % 65536 :: s.stack } },
      .ok (.goto target)) := by
    simp only [Machine.perform, Registers.push, Registers.depth, free, if_false]
    rfl
  obtain ⟨t, calls, machine⟩ := executes_of_perform part call (.inl (.call small rfl)) called
  have there : t.machine.registers.pc = target := by
    rw [machine]
    change (target : Int) % 65536 = target
    omega
  have memory : t.machine.memory = s.machine.memory := by rw [machine]; rfl
  have word : t.machine.WordAt 0x00EE := by
    rw [Machine.WordAt, there, memory]
    exact ⟨first, second, ret⟩
  have stacked : t.machine.registers.stack = (s.pc + 2) % 65536 :: s.stack := by rw [machine]; rfl
  have returned : t.machine.perform t.pc .ret = ({ t.machine with
      registers := { t.machine.registers with stack := s.stack } },
      .ok (.goto ((s.pc + 2) % 65536))) := by
    simp only [Machine.perform, Registers.pop, stacked]
  have part' : t.machine.wiring.has .memory = true := by rw [machine]; exact part
  obtain ⟨u, returns, machine'⟩ := executes_of_perform part' word (.inl (.ret rfl)) returned
  have back : u.stack = s.stack := by rw [stack, machine']; rfl
  refine ⟨through s t u, rfl, ⟨target, calls⟩, ?_, ?_, congrArg _ back⟩
  · intro k positive within
    obtain rfl : k = 1 := by omega
    obtain ⟨_, r, _, _, stepped⟩ := returns
    exact .inl ⟨r, stepped⟩
  · intro k positive within
    obtain rfl : k = 1 := by omega
    have deeper : t.stack.length = s.stack.length + 1 := congrArg List.length stacked
    have other : t.stack.length ≠ s.stack.length := by omega
    exact other

/-- A memory with the given bytes. -/
def memoryOf (size : Nat) (byte : Nat → UInt8) : Memory :=
  ⟨size, 0, Array.ofFn fun i : Fin size => byte i, 0, by simp⟩

theorem byteAt_memoryOf {size : Nat} {byte : Nat → UInt8} {address : Int}
    (holds : (memoryOf size byte).Holds address) :
    (memoryOf size byte).byteAt address = byte address.toNat := by
  have inside : address.toNat < size := by
    have := holds.1
    have : address < size := holds.2
    omega
  simp [memoryOf, Memory.byteAt, inside]

/-- A system that is about to execute a call under 65534; a return stands where the call leads. -/
def far (size : Nat) : System :=
  { (default : System) with
    machine := { Machine.running #[] with
      memory := memoryOf size fun i => if i = 65534 then 0x22 else if i = 513 then 0xEE else 0
      registers := .create defaultStackDepth 65534 } }

theorem far_excursion {size : Nat} (large : 65536 ≤ size) :
    ∃ σ : Nat → System, σ 0 = far size ∧ Excursion σ 1 := by
  have holds : ∀ address : Int, 0 ≤ address → address < 65536 →
      (far size).machine.memory.Holds address := fun address low high =>
    ⟨low, show address < size by omega⟩
  have byte : ∀ address : Int, 0 ≤ address → address < 65536 →
      (far size).machine.memory.byteAt address =
        if address.toNat = 65534 then 0x22 else if address.toNat = 513 then 0xEE else 0 :=
    fun address low high => byteAt_memoryOf (holds address low high)
  have call : (far size).machine.WordAt (0x2000 + 0x200) := by
    have pc : (far size).machine.registers.pc = 65534 := rfl
    rw [Machine.WordAt, pc, byte _ (by decide) (by decide), byte _ (by decide) (by decide)]
    exact ⟨holds _ (by decide) (by decide), holds _ (by decide) (by decide), rfl⟩
  refine excursion_of_words rfl ?_ (by decide) call (holds _ (by decide) (by decide))
    (holds _ (by decide) (by decide)) ?_
  · change (0 : Int) < 16
    decide
  · rw [byte _ (by decide) (by decide), byte _ (by decide) (by decide)]
    rfl

theorem call_returns_far : ∃ σ : Nat → System, σ 0 = far 65536 ∧ Excursion σ 1 ∧
    (σ 1).Executes .ret (σ 2) ∧ (σ 2).stack = [] ∧ (σ 2).pc = 0 := by
  obtain ⟨σ, start, run⟩ := far_excursion (Nat.le_refl 65536)
  have pc : (σ 0).pc = 65534 := by rw [start]; rfl
  have stack : (σ 0).stack = [] := by rw [start]; rfl
  obtain ⟨returned, same, behind, -⟩ := call_returns run
  exact ⟨σ, start, run, returned, same.trans stack, by rw [behind, pc]; rfl⟩

/-- The entry of a call is not the address behind it where that is past 65535. -/
theorem call_entry_wraps : ¬ ∀ (σ : Nat → System) (n : Nat), Excursion σ n →
    (σ n).Executes .ret (σ (n + 1)) ∧ (σ (n + 1)).stack = (σ 0).stack ∧
      (σ (n + 1)).pc = ((σ 0).pc + 2) % 65536 ∧
      ∀ k, 0 < k → k ≤ n → ∃ ext, (σ k).stack = ext ++ ((σ 0).pc + 2) :: (σ 0).stack := by
  intro claim
  obtain ⟨σ, start, run⟩ := far_excursion (Nat.le_refl 65536)
  have pc : (σ 0).pc = 65534 := by rw [start]; rfl
  have stack : (σ 0).stack = [] := by rw [start]; rfl
  obtain ⟨target, call⟩ := run.call
  have entry : (σ 1).stack = [0] := by rw [call.call, pc, stack]; rfl
  obtain ⟨ext, under⟩ := (claim σ 1 run).2.2.2 1 Nat.one_pos (Nat.le_refl 1)
  rw [entry, pc, stack] at under
  cases ext with
  | nil => cases under
  | cons _ ext => cases ext <;> cases under

end System
end ChipEight
