import ChipEight.Proofs.Accounting
import ChipEight.Proofs.Fractions
/-! # What a system owes

A run takes up the steps that its time is worth, does the whole ones, and owes the rest.  Between
two requests that is less than one step (`System.Lives.fractional`), or it is no finite number at
all.  The latter happens only where a run has failed, and then no run is granted any more until the
next load or reset (`System.serveAll_endless`). -/

namespace ChipEight

namespace System

open Number

variable {config : MachineConfig} {s t : System} {turn_ : Turn} {turns : List Turn}
  {fs : Files} {q : SystemRequest} {asked : List Asked} {debt : Float}

/-- Less than one step, if it is finite. -/
def Fractional (debt : Float) : Prop := ∀ v : ℚ, Number.value? debt = some v → |v| < 1

theorem fractional_zero : Fractional 0.0 := by
  intro v value
  rw [value?_nil] at value
  obtain rfl := Option.some.inj value
  norm_num

/-! ## Turns -/

theorem step_debt (s : System) : s.step.1.debt = s.debt := by
  rw [step]
  rcases s.machine.step with ⟨m, (f | _) | r⟩ <;> rfl

theorem moveKey_debt (s : System) (key : Datum) (down : Bool) :
    (s.moveKey key down).1.debt = s.debt := by
  rw [moveKey]
  cases keyOf key <;> rfl

theorem setKeys_debt (s : System) (states : List Bool) : (s.setKeys states).1.debt = s.debt := by
  rw [setKeys]
  cases s.machine.keypad.setKeys states <;> rfl

theorem updateTimers_debt (s : System) (elapsed : Number) :
    (s.updateTimers elapsed).1.debt = s.debt := by
  rw [updateTimers]
  rcases s.machine.timers.update elapsed with ⟨timers, e | ticks⟩
  · rfl
  · dsimp only
    split <;> rfl

theorem host_debt (s : System) (action : HostAction) : (s.host action).debt = s.debt :=
  host_cases (P := fun t => t.debt = s.debt) rfl s.moveKey_debt s.setKeys_debt s.updateTimers_debt
    action

theorem loadProgram_debt (s : System) (program : List UInt8) :
    (s.loadProgram program).1.debt = s.debt ∨
      (s.loadProgram program).2 = .ok () ∧ (s.loadProgram program).1.debt = 0.0 := by
  rw [loadProgram]
  cases s.machine.memory.loadRom program with
  | error f => exact .inl rfl
  | ok memory => exact .inr ⟨rfl, rfl⟩

/-- A turn leaves alone what is owed, starts again with nothing, or owes something else. -/
theorem turn_debt (s : System) (turn_ : Turn) : (s.turn turn_).debt = s.debt ∨
    (s.Restarts turn_ ∧ (s.turn turn_).debt = 0.0) ∨ turn_ = .owe (s.turn turn_).debt := by
  cases turn_ with
  | step => exact .inl s.step_debt
  | host action => exact .inl (s.host_debt action)
  | owe debt => exact .inr (.inr rfl)
  | loadProgram program => exact (s.loadProgram_debt program).imp_right .inl
  | loadRom fs path =>
    rw [turn, Restarts]
    rcases s.loadRom_cases fs path with ⟨same, -⟩ | ⟨program, answer, o, left⟩
    · exact .inl (congrArg debt same)
    · rw [answer, left]
      exact (loadProgram_debt _ program).imp_right .inl
  | reset =>
    rw [turn, Restarts]
    cases start : s.startMemory with
    | ok memory =>
      obtain ⟨done, o, left⟩ := reset_of_ok start
      rw [left]
      exact .inr (.inl ⟨done, rfl⟩)
    | error f =>
      obtain ⟨-, o, left⟩ := reset_of_error start
      rw [left]
      exact .inl rfl

/-- Whatever is true of what is owed at first, of nothing, and of what is owed in between, is true in
the end. -/
theorem turns_debt {P : Float → Prop} (start : P s.debt)
    (restarts : P 0.0 ∨ ∀ turn_ ∈ turns, turn_.GoesOn)
    (owed : ∀ debt, .owe debt ∈ turns → P debt) : P (turns.foldl turn s).debt := by
  induction turns generalizing s with
  | nil => exact start
  | cons turn_ turns ih =>
    refine ih ?_ (restarts.imp_right fun goesOn turn_ mem => goesOn turn_ (.tail _ mem))
      fun debt mem => owed debt (.tail _ mem)
    rcases s.turn_debt turn_ with same | ⟨again, zero⟩ | owes
    · rwa [same]
    · rw [zero]
      exact restarts.resolve_right fun goesOn => not_restarts (goesOn turn_ (.head _)) again
    · exact owed _ (owes ▸ .head _)

/-! ## Requests -/

/-- What a run for a time owes in the end, whether it has been granted or has failed. -/
def Owes (s : System) (elapsed : Number) (debt : Float) : Prop :=
  ∃ owed, s.owe elapsed = .ok owed ∧ (truncate? owed = none ∧ debt = owed ∨
    ∃ cycles, truncate? owed = some cycles ∧ debt = owed - (floatOfInt? cycles).getD 0.0)

/-- Only a run for a time changes what is owed without starting again. -/
theorem owes_of_mem_turns (mem : .owe debt ∈ s.turns fs q) :
    ∃ elapsed, q = .runFor elapsed ∧ s.Owes elapsed debt := by
  have never {turns : List Turn} (other : ∀ turn_ ∈ turns, ∀ debt, turn_ ≠ .owe debt)
      (mem : .owe debt ∈ turns) : False := other _ mem debt rfl
  cases q with
  | runFor elapsed =>
    refine ⟨elapsed, rfl, ?_⟩
    rw [turns] at mem
    cases owes : s.owe elapsed with
    | error e =>
      rw [owes] at mem
      cases mem
    | ok owed =>
      rw [owes] at mem
      dsimp only at mem
      refine ⟨owed, owes, ?_⟩
      cases whole : truncate? owed with
      | none =>
        rw [whole] at mem
        have same : debt = owed := by simpa using mem
        exact .inl ⟨rfl, same⟩
      | some cycles =>
        rw [whole] at mem
        rcases List.mem_cons.mp mem with same | later
        · exact .inr ⟨cycles, rfl, Turn.owe.inj same⟩
        · refine (never (forall_mem_stepTurns ?_ cycles.toNat _ ?_) later).elim
          · exact fun _ => Turn.noConfusion
          · simp
  | runCycles cycles =>
    refine (never (forall_mem_cycleTurns ?_ ?_ cycles.toNat s) mem).elim
    · exact fun _ => Turn.noConfusion
    · exact fun _ _ => Turn.noConfusion
  | _ => cases List.mem_singleton.mp mem

theorem Owes.fractional {elapsed : Number} (owes : s.Owes elapsed debt) : Fractional debt := by
  obtain ⟨owed, -, ⟨none_, rfl⟩ | ⟨cycles, some_, rfl⟩⟩ := owes
  · intro v value
    exact absurd ((isFinite_iff debt).mpr ⟨v, value⟩) (truncate?_eq_none.mp none_)
  · obtain ⟨v, p, -, stored, rest, small, -⟩ := truncate?_parts some_
    intro w left_
    rw [stored, Option.getD_some, rest] at left_
    exact Option.some.inj left_ ▸ small

/-- Less than a step is owed after a request, if it was so before. -/
theorem serve_fractional (fs : Files) (q : SystemRequest) (fractional : Fractional s.debt) :
    Fractional (s.serve fs q).debt := by
  rw [serve_turns]
  refine turns_debt fractional (.inl fractional_zero) fun debt mem => ?_
  obtain ⟨elapsed, -, owes⟩ := owes_of_mem_turns mem
  exact owes.fractional

theorem owe_endless {elapsed : Number} {owed : Float} (endless : ¬ s.debt.isFinite = true)
    (owes : s.owe elapsed = .ok owed) : ¬ owed.isFinite = true := by
  rw [owe] at owes
  split at owes
  · cases owes
    exact add_not_finite (.inl endless)
  · cases owes

/-- **Who owes what is not finite owes it on**, whatever is asked but for loads and resets. -/
theorem serveAll_endless (endless : ¬ s.debt.isFinite = true)
    (goesOn : ∀ request ∈ asked, RequestGoesOn request.2) :
    ¬ (s.serveAll asked).debt.isFinite = true := by
  induction asked generalizing s with
  | nil => exact endless
  | cons request rest ih =>
    obtain ⟨fs, q⟩ := request
    rw [List.forall_mem_cons] at goesOn
    refine ih ?_ goesOn.2
    dsimp only
    rw [serve_turns]
    refine turns_debt (P := fun debt => ¬ debt.isFinite = true) endless
      (.inr (goesOn_turns goesOn.1 fs s)) fun debt mem => ?_
    obtain ⟨elapsed, -, owed, owes, ⟨-, rfl⟩ | ⟨cycles, some_, -⟩⟩ := owes_of_mem_turns mem
    · exact owe_endless endless owes
    · rw [truncate?_not_finite (owe_endless endless owes)] at some_
      cases some_

/-! ## Systems that live -/

/-- The systems that come up between two requests.  Meanwhile the parts of the machine can be changed
in any way, and so can the observers. -/
inductive Lives (config : MachineConfig) : System → Prop
  | boot {o : Observers} {s : System} : (config.boot o).2 = .ok s → Lives config s
  | serve {s : System} (fs : Files) (q : SystemRequest) :
      Lives config s → Lives config (s.serve fs q)
  | parts {s : System} (machine : Machine) (observers : Observers) :
      Lives config s → Lives config { s with machine, observers }

theorem boot_debt {o : Observers} (booted : (config.boot o).2 = .ok s) : s.debt = 0.0 := by
  obtain ⟨_, _, _, _, -, -, -, -, rfl⟩ := boot_cases booted
  rfl

/-- **Less than one step is owed** between two requests, if it is finite. -/
theorem Lives.fractional (lives : Lives config s) : Fractional s.debt := by
  induction lives with
  | boot booted =>
    rw [boot_debt booted]
    exact fractional_zero
  | serve fs q _ ih => exact serve_fractional fs q ih
  | parts machine observers _ ih => exact ih

end System
end ChipEight
