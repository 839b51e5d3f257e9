import ChipEight.Proofs.Carrying
import ChipEight.Proofs.Lockstep
import ChipEight.Proofs.SavedSettings
import ChipEight.Trace.Storage
/-! # A recorded trace can be saved

A trace that holds nothing but the snapshots of steps (`Trace.Holds`) has a row for each of them and
statistics, so only the files can keep it from being saved (`Trace.Holds.writeTo`).  Such a trace is
what a system records, however many cycles it runs (`System.Recording.runCyclesFrom`). -/

namespace ChipEight

open Datum Number

namespace Trace

variable {t : Trace} {count : Nat}

/-- What a trace without a filter holds of at most so many steps, counted from one on. -/
structure Holds (t : Trace) (count : Nat) : Prop where
  unfiltered : t.filter = none
  names : t.names.all Datum.isText = true
  cycles : t.startCycle = .null ∧ t.currentCycle = .null ∨
    ∃ first last : Nat, t.startCycle = .int first ∧ t.currentCycle = .int last ∧
      first ≤ count ∧ last ≤ count
  history : ∀ d ∈ t.history, ∃ after cycle r, d = Observers.snapshot after cycle r

/-- A new trace holds nothing. -/
theorem holds_create {limit : Option Int} (created : create limit none = .ok t) : t.Holds 0 := by
  rw [create.eq_def] at created
  split at created
  · cases created
    exact ⟨rfl, rfl, .inl ⟨rfl, rfl⟩, by simp⟩
  split at created
  · cases created
  split at created
  · cases created
  · cases created
    exact ⟨rfl, rfl, .inl ⟨rfl, rfl⟩, by simp⟩

theorem mem_keepLast {α : Type} {limit : Option Nat} {xs : List α} {x : α}
    (mem : x ∈ keepLast limit xs) : x ∈ xs := by
  cases limit with
  | none => exact mem
  | some n => exact List.mem_of_mem_drop mem

theorem mergeNames_texts {names more : List Datum} (old : names.all Datum.isText = true)
    (new : more.all Datum.isText = true) : (mergeNames names more).all Datum.isText = true := by
  induction more generalizing names with
  | nil => exact old
  | cons n more ih =>
    rw [List.all_cons, Bool.and_eq_true] at new
    refine ih ?_ new.2
    dsimp only
    split
    · exact old
    · rw [List.all_append, old, List.all_cons, new.1]
      rfl

/-- The registers of a snapshot have names. -/
theorem snapshot_form (after : Machine) (cycle : Nat) (r : StepReport) :
    ∃ pc opcode mnemonic registers, (registers.map Prod.fst).all Datum.isText = true ∧
      Observers.snapshot after cycle r =
        snapshotOf (.int cycle) (.int pc) (.int opcode) (.text mnemonic) registers := by
  refine ⟨_, _, _, _, ?_, rfl⟩
  rw [List.map_map, List.all_map, List.all_eq_true]
  exact fun _ _ => rfl

/-- The cycle of a snapshot is the last from now on, and the first if there was none. -/
theorem noteCycle_counts (t : Trace) (cycle : Int) (pc opcode mnemonic : Datum)
    (registers : List (Datum × Datum)) :
    ∃ start, t.noteCycle (snapshotOf (.int cycle) pc opcode mnemonic registers) =
      .ok { t with startCycle := start, currentCycle := .int cycle } ∧
      (t.startCycle = .null → start = .int cycle) ∧
      ∀ first, t.startCycle = .int first → start = .int first :=
  ⟨_, rfl, fun none_ => by rw [none_], fun first known => by rw [known]; rfl⟩

theorem noteNames_merges (t : Trace) (cycle pc opcode mnemonic : Datum)
    (registers : List (Datum × Datum)) :
    t.noteNames (snapshotOf cycle pc opcode mnemonic registers) =
      .ok { t with names := mergeNames t.names (registers.map Prod.fst) } := rfl

/-- The next step is counted, named and kept. -/
theorem Holds.add (holds : t.Holds count) (after : Machine) (r : StepReport) :
    (t.add (Observers.snapshot after (count + 1) r)).1.Holds (count + 1) := by
  obtain ⟨unfiltered, names, cycles, history⟩ := holds
  obtain ⟨pc, opcode, mnemonic, registers, texts, form⟩ := snapshot_form after (count + 1) r
  obtain ⟨start, cycled, begins, goesOn⟩ := noteCycle_counts { t with total := t.total + 1 }
    (count + 1 : Nat) (.int pc) (.int opcode) (.text mnemonic) registers
  have whole (snapshot : Datum) : restrict t.filter snapshot = .ok snapshot := by
    rw [unfiltered, restrict]
  rw [Trace.add, whole, form]
  simp only [cycled, noteNames_merges]
  refine ⟨unfiltered, mergeNames_texts names texts, .inr ?_, fun d mem => ?_⟩
  · rcases cycles with ⟨none_, -⟩ | ⟨first, last, known, -, low, -⟩
    · exact ⟨count + 1, count + 1, begins none_, rfl, le_rfl, le_rfl⟩
    · exact ⟨first, count + 1, goesOn first known, rfl, low.trans (Nat.le_succ _), le_rfl⟩
  · rcases List.mem_append.mp (mem_keepLast mem) with old | new
    · exact history d old
    · exact ⟨after, count + 1, r, (List.mem_singleton.mp new).trans form.symm⟩

/-! ## Saving -/

theorem Holds.sorted (holds : t.Holds count) : ∃ names, sortNames t.names = .ok names := by
  refine ⟨_, if_pos ?_⟩
  rw [Bool.or_eq_true, Bool.or_eq_true]
  refine .inl (.inr (List.all_eq_true.mpr fun d mem => ?_))
  obtain ⟨name, rfl⟩ := of_isText (List.all_eq_true.mp holds.names d mem)
  rfl

/-- The cycles from the first step to the last can be told, as long as a float can tell as many. -/
theorem Holds.covered (holds : t.Holds count) (inside : (count : ℚ) < reach) :
    ∀ elapsed, ∃ cycles, t.cyclesCovered elapsed = .ok cycles := by
  intro elapsed
  rcases holds.cycles with ⟨start, -⟩ | ⟨first, last, start, current, low, high⟩
  · exact ⟨.int 0, by rw [cyclesCovered, start]⟩
  · have below : |((last - first : ℤ) : ℚ)| < reach := by
      have first_le : (first : ℚ) ≤ count := by exact_mod_cast low
      have last_le : (last : ℚ) ≤ count := by exact_mod_cast high
      have first_nonneg : (0 : ℚ) ≤ first := first.cast_nonneg
      have last_nonneg : (0 : ℚ) ≤ last := last.cast_nonneg
      push_cast
      rw [abs_lt]
      constructor <;> linarith
    obtain ⟨f, _, stored, -⟩ := floatOfInt?_rounds _ below
    have difference : (Datum.int last).difference (.int first) = .ok (.int (last - first)) := rfl
    have told : ¬ (Number.lt (.int 0) elapsed &&
        ((Datum.int (last - first)).amount?.bind toFloat?).isNone) = true := by
      rw [show (Datum.int (last - first)).amount?.bind toFloat? = some f from stored,
        Option.isNone_some, Bool.and_false]
      exact Bool.false_ne_true
    refine ⟨.int (last - first), ?_⟩
    rw [cyclesCovered, start, current]
    change ((Datum.int last).difference (.int first) >>= fun covered => _) = _
    rw [difference]
    exact if_neg told

theorem stateRow_snapshot (names : List Datum) (index : Nat) (after : Machine) (cycle : Nat)
    (r : StepReport) : ∃ text,
      stateRow names index (Observers.snapshot after cycle r) = .ok text := by
  obtain ⟨pc, opcode, mnemonic, registers, -, form⟩ := snapshot_form after cycle r
  rw [form]
  exact ⟨_, rfl⟩

/-- Every snapshot of a step makes a row. -/
theorem stateRows_snapshots {names states : List Datum} {index : Nat}
    (steps : ∀ d ∈ states, ∃ after cycle r, d = Observers.snapshot after cycle r) :
    (stateRows names index states).2 = .ok () := by
  induction states generalizing index with
  | nil => rfl
  | cons d states ih =>
    rw [List.forall_mem_cons] at steps
    obtain ⟨⟨after, cycle, r, rfl⟩, rest⟩ := steps
    obtain ⟨text, row⟩ := stateRow_snapshot names index after cycle r
    rw [stateRows, row]
    exact ih rest

theorem Holds.told (holds : t.Holds count) (inside : (count : ℚ) < reach)
    (clock : Clock) : ∃ d, t.toDatum clock = .ok d := by
  obtain ⟨names, sorted⟩ := holds.sorted
  obtain ⟨cycles, covered⟩ := holds.covered inside clock.elapsed
  rw [toDatum, statistics, covered]
  simp only [sorted, bind, Except.bind, pure, Except.pure]
  exact ⟨_, rfl⟩

/-- What a save answers that writes with such a result: what the files refuse is no failure. -/
def answerOf : Except Failure Unit → Except Failure Bool
  | .ok () => .ok true
  | .error (.file _) => .ok false
  | .error e => .error e

/-- A trace is saved as it is written. -/
theorem save_of_writeTo {fs files : Files} {path format : String} {clock : Clock}
    {result : Except Failure Unit} (known : formats.contains format = true)
    (written : t.writeTo fs path format clock = (files, result)) (j : Journal) :
    ∃ j', t.save fs j path format clock = (files, j', answerOf result) := by
  rw [save, if_pos known, written]
  cases result with
  | ok _ => exact ⟨_, rfl⟩
  | error e => cases e <;> exact ⟨_, rfl⟩

/-- **Only the files can keep a recorded trace from being written.** -/
theorem Holds.writeTo (holds : t.Holds count) (inside : (count : ℚ) < reach) {fs : Files}
    {path : String} (writable : fs.Writable path) (format : String) :
    ∃ files, t.writeTo fs path format noTime = (files, .ok ()) := by
  obtain ⟨made, parent, wrote⟩ := writable.writeText
  obtain ⟨names, sorted⟩ := holds.sorted
  obtain ⟨d, told⟩ := holds.told inside noTime
  delta Trace.writeTo
  rw [parent]
  dsimp only
  rw [told, sorted]
  dsimp only
  split
  · obtain ⟨files, stored⟩ := wrote _
    exact ⟨files, by rw [stored]⟩
  · obtain ⟨files, stored⟩ := wrote _
    exact ⟨files, by rw [stored, stateRows_snapshots holds.history]⟩

end Trace

namespace System

variable {s t : System}

/-- If a trace is kept, it holds the steps that were counted. -/
def Recording (s : System) : Prop := ∀ trace, s.observers.trace = some trace →
  trace.Holds s.cycleCount

/-- What is not snapshots leaves no trace. -/
theorem host_trace (s : System) (action : HostAction) :
    (s.host action).observers.trace = s.observers.trace := by
  rw [host_observers, Observers.hearAll_trace, snapshots,
    deaf_snapshot?.filterMap (s.plain_hostNotices action), Trace.takes_none]

theorem step_trace {r : StepReport} (stepped : s.step = (t, .ok r)) :
    t.observers.trace = s.observers.trace.map fun trace =>
      (trace.add (Observers.snapshot t.machine (s.cycleCount + 1) r)).1 := by
  have executed : s.executions [.step] = [⟨s, r⟩] := by
    simp only [executions, execution?, stepped, Option.toList, List.append_nil]
  have heard := congrArg Observers.trace (s.turns_observers [.step])
  rw [Observers.hearAll_trace, snapshots_noticesOf, executed] at heard
  rw [show t = [Turn.step].foldl turn s from (congrArg Prod.fst stepped).symm, heard]
  rfl

theorem Recording.step {r : StepReport} (recording : s.Recording) (stepped : s.step = (t, .ok r)) :
    t.Recording := by
  intro trace kept
  have counted := s.step_cycleCount
  rw [← step_answer, stepped] at counted
  rw [step_trace stepped, Option.map_eq_some_iff] at kept
  obtain ⟨before, there, rfl⟩ := kept
  rw [show t.cycleCount = s.cycleCount + 1 from counted]
  exact (recording before there).add t.machine r

theorem Recording.host (recording : s.Recording) (action : HostAction) :
    (s.host action).Recording := by
  intro trace kept
  rw [host_trace] at kept
  rw [(s.sameCounts_host action).steps]
  exact recording trace kept

/-- A load starts to count again. -/
theorem Recording.loadProgram {program : List UInt8} (granted : (s.loadProgram program).2 = .ok ())
    (fresh : ∀ trace, s.observers.trace = some trace → trace.Holds 0) :
    (s.loadProgram program).1.Recording := by
  intro trace kept
  rw [loadProgram_observers, Observers.hearAll_trace, snapshots,
    deaf_snapshot?.filterMap (s.plain_loadNotices program), Trace.takes_none] at kept
  cases loaded : s.machine.memory.loadRom program with
  | error f =>
    rw [(loadProgram_of_error loaded).1] at granted
    cases granted
  | ok memory =>
    obtain ⟨-, o, left⟩ := loadProgram_of_ok loaded
    rw [left]
    exact fresh trace kept

/-- **A run records its steps**, and nothing else. -/
theorem Recording.runCyclesFrom {n : Nat} {done reports : Array StepReport}
    (recording : s.Recording) (ran : runCyclesFrom n s done = (t, .ok reports)) : t.Recording := by
  induction n generalizing s done with
  | zero =>
    cases ran
    exact recording
  | succ n ih =>
    rw [System.runCyclesFrom] at ran
    rcases stepped : s.step with ⟨s₁, e | r⟩ <;> rw [stepped] at ran
    · cases ran
    dsimp only at ran
    cases lasts : s₁.stepTime with
    | error e =>
      rw [lasts] at ran
      cases ran
    | ok tick =>
      have passed := (recording.step stepped).host (.updateTimers tick)
      rw [System.host] at passed
      rcases went : s₁.updateTimers tick with ⟨s₂, e | k⟩ <;> simp only [lasts, went] at ran passed
      · cases ran
      · exact ih passed ran

end System
end ChipEight
