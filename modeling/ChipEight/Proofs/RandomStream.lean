import ChipEight.Proofs.BlockAccess
import ChipEight.Proofs.Requests
/-! # The stream of random bytes

A random source is the stream of the bytes that it gives one after the other (`ByteSource.nth`).
Each instruction that asks for a random byte takes the next one, and nothing else takes any or gives
one back (`System.turns_source`); so the bytes come in the order of the stream, whatever happens in
between (`System.random_stream`). -/

namespace ChipEight

namespace ByteSource

/-- The source after so many bytes. -/
def skip : ByteSource → Nat → ByteSource
  | source, 0 => source
  | source, n + 1 => source.draw.2.skip n

/-- The bytes that a source gives, the first under zero. -/
def nth (source : ByteSource) (n : Nat) : UInt8 := (source.skip n).draw.1

theorem skip_add (source : ByteSource) (m n : Nat) :
    (source.skip m).skip n = source.skip (m + n) := by
  induction m generalizing source with
  | zero => rw [skip, Nat.zero_add]
  | succ m ih => rw [skip, ih, Nat.succ_add, skip]

theorem nth_listed (bytes : List UInt8) (n : Nat) : (listed bytes).nth n = bytes.getD n 0 := by
  induction n generalizing bytes with
  | zero => cases bytes <;> rfl
  | succ n ih =>
    cases bytes with
    | nil => exact ih []
    | cons byte bytes => exact ih bytes

/-- Any stream is given by some source, as far as one looks. -/
theorem exists_stream (b : Nat → UInt8) (n : Nat) :
    ∃ source : ByteSource, ∀ i ≤ n, source.nth i = b i := by
  refine ⟨listed ((List.range (n + 1)).map b), fun i le => ?_⟩
  have inside : i < n + 1 := Nat.lt_succ_of_le le
  simp [nth_listed, List.getD_eq_getElem?_getD, inside]

end ByteSource

namespace System

variable {s : System} {turn_ : Turn} {x : Reg} {mask : UInt8}

/-- A turn takes a byte from the source. -/
def draws (s : System) (turn_ : Turn) : Bool :=
  match s.executed? turn_ with
  | some (.random _ _) => true
  | _ => false

theorem draws_iff :
    s.draws turn_ = true ↔ turn_ = .step ∧ ∃ x mask, s.Executes (.random x mask) s.step.1 := by
  constructor
  · intro draws
    rw [System.draws] at draws
    split at draws
    · rename_i x mask executed
      obtain ⟨stepping, executes⟩ := executed?_eq_some_iff.mp executed
      exact ⟨stepping, x, mask, executes⟩
    · cases draws
  · rintro ⟨stepping, x, mask, executes⟩
    rw [draws, executed?_eq_some_iff.mpr ⟨stepping, executes⟩]

/-- The bytes that some turns take from the source. -/
def drawn (s : System) : List Turn → Nat
  | [] => 0
  | turn_ :: rest => (s.draws turn_).toNat + (s.turn turn_).drawn rest

theorem drawn_le_length (s : System) (turns : List Turn) : s.drawn turns ≤ turns.length := by
  induction turns generalizing s with
  | nil => exact Nat.le_refl 0
  | cons turn_ turns ih =>
    have rest := ih (s.turn turn_)
    have one := Bool.toNat_le (s.draws turn_)
    rw [drawn, List.length_cons]
    omega

/-- A turn takes one byte from the source or leaves it alone. -/
theorem turn_skips (s : System) (turn_ : Turn) :
    (s.turn turn_).machine.source = s.machine.source.skip (s.draws turn_).toNat := by
  by_cases stepping : turn_ = .step
  · subst stepping
    rw [turn, step_source, draws]
    cases s.executed? .step with
    | none => rfl
    | some op => cases op <;> rfl
  · have idle : s.draws turn_ = false :=
      Bool.eq_false_iff.mpr fun draws => stepping (draws_iff.mp draws).1
    rw [turn_source stepping, idle]
    rfl

/-- **A run takes as many bytes as it executes instructions that ask for one.** -/
theorem turns_source (s : System) (turns : List Turn) :
    (turns.foldl turn s).machine.source = s.machine.source.skip (s.drawn turns) := by
  induction turns generalizing s with
  | nil => rfl
  | cons turn_ turns ih => rw [List.foldl_cons, ih, turn_skips, ByteSource.skip_add, drawn]

theorem Executes.random {t : System} (executes : s.Executes (.random x mask) t) (y : Reg) :
    t.machine.registers.get y =
      if x = y then s.machine.source.draw.1 &&& mask else s.machine.registers.get y := by
  obtain ⟨w, r, word, denoted, stepped⟩ := executes
  obtain ⟨v, after, n, other, performed, machine⟩ :=
    Machine.step_performed (machine_step_of_ok stepped)
  obtain rfl := other.unique word
  rw [(denotes_iff word.lt).mp denoted] at performed
  cases performed
  rw [machine, ← Registers.get_set]
  rfl

/-! ## Other requests -/

/-- A request for a part that executes no instruction. -/
def Still : Request → Prop
  | .system _ | .processor .step | .processor (.execute _ _) => False
  | _ => True

/-- The machine draws from a source. -/
def DrawsFrom (source : ByteSource) (m : Machine) : Prop := m.source = source

theorem ask_source {q : Request} (still : Still q) (s : System) (files : Files) :
    (s.ask files q).2.machine.source = s.machine.source := by
  have start : DrawsFrom s.machine.source s.machine := rfl
  cases q with
  | system q => exact still.elim
  | memory q => exact q.keeps (fun _ same => same) { system := s, files } start
  | registers q => exact q.keeps (fun _ same => same) { system := s, files } start
  | timers q => exact q.keeps (fun _ same => same) { system := s, files } start
  | keypad q => exact q.keeps (fun _ same => same) { system := s, files } start
  | display q => exact q.keeps (fun _ same _ => same) { system := s, files } start
  | processor q =>
    cases q with
    | step | execute _ _ => exact still.elim
    | fetch =>
      have idle : Running.KeepsMachine (DrawsFrom s.machine.source)
          (ProcessorRequest.fetch.run false) :=
        Running.keeps_machine fun _ _ => Running.keeps_ofExcept fun _ _ => Running.keeps_pure _
      exact idle { system := s, files } start
    | reset => rfl

/-- **The bytes come in the order of the stream.**  Whatever the configuration and the stream, and
whatever has been done so far: the next instruction that asks for a byte gets the one under the
number of those before it, and sets its register to what its mask leaves of it.  No other turn takes
a byte or gives one back, nor do requests to the parts; and requests to the system are turns. -/
theorem random_stream {b : Nat → UInt8} (turns : List Turn)
    (stream : ∀ i ≤ turns.length, s.machine.source.nth i = b i) :
    let t := turns.foldl turn s
    (∀ x mask, t.Executes (.random x mask) t.step.1 → ∀ y, t.step.1.machine.registers.get y =
      if x = y then b (s.drawn turns) &&& mask else t.machine.registers.get y) ∧
    (∀ turn_, ¬ (turn_ = .step ∧ ∃ x mask, t.Executes (.random x mask) t.step.1) →
      (t.turn turn_).machine.source = t.machine.source) ∧
    (∀ files q, Still q → (t.ask files q).2.machine.source = t.machine.source) ∧
    t.machine.source = s.machine.source.skip (s.drawn turns) ∧
    ∀ asked : List Asked, s.serveAll asked = (s.turnsOf asked).foldl turn s := by
  intro t
  have source : t.machine.source = s.machine.source.skip (s.drawn turns) := s.turns_source turns
  refine ⟨fun x mask executes y => ?_, fun turn_ other => ?_,
    fun files q still => ask_source still t files, source, s.serveAll_turns⟩
  · rw [executes.random y, source, ← stream _ (s.drawn_le_length turns)]
    rfl
  · rw [turn_skips, Bool.eq_false_iff.mpr (draws_iff.not.mpr other)]
    rfl

/-- A program (`RND V0, 0x0F`, `RND V1, 0xFF`) that is begun, reset, and begun again. -/
def twoRolls : List Turn := [.loadProgram [0xC0, 0x0F, 0xC1, 0xFF], .step, .reset, .step]

/-- A stream that goes up by 50. -/
def climbing (i : Nat) : UInt8 := UInt8.ofNat (50 * i)

theorem random_stream_rolls : ∃ s₀ s : System, (({} : MachineConfig).boot default).2 = .ok s₀ ∧
    s = { s₀ with machine := { s₀.machine with source := s.machine.source } } ∧
    (∀ i ≤ twoRolls.length, s.machine.source.nth i = climbing i) ∧
    let t := twoRolls.foldl turn s
    (∀ x mask, t.Executes (.random x mask) t.step.1 → ∀ y, t.step.1.machine.registers.get y =
      if x = y then climbing (s.drawn twoRolls) &&& mask else t.machine.registers.get y) ∧
    (∀ turn_, ¬ (turn_ = .step ∧ ∃ x mask, t.Executes (.random x mask) t.step.1) →
      (t.turn turn_).machine.source = t.machine.source) ∧
    (∀ files q, Still q → (t.ask files q).2.machine.source = t.machine.source) ∧
    t.machine.source = s.machine.source.skip (s.drawn twoRolls) ∧
    ∀ asked : List Asked, s.serveAll asked = (s.turnsOf asked).foldl turn s := by
  obtain ⟨s₀, booted⟩ : ∃ s, (({} : MachineConfig).boot default).2 = .ok s := ⟨_, rfl⟩
  obtain ⟨source, stream⟩ := ByteSource.exists_stream climbing twoRolls.length
  obtain ⟨s, replaced⟩ : ∃ s, s = { s₀ with machine := { s₀.machine with source } } := ⟨_, rfl⟩
  have given : s.machine.source = source := by rw [replaced]
  rw [← given] at replaced stream
  exact ⟨s₀, s, booted, replaced, stream, random_stream twoRolls stream⟩

end System
end ChipEight
