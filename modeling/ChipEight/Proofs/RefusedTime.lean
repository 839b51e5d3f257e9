import ChipEight.Proofs.Debts
/-! # Time that is refused

Neither the timers nor a run for a time take every time that they are told of, and what they refuse
can leave a trace.  The timers collect a time before they find out that it is worth no ticks: a
negative one is refused before that, but an infinite one stays, and from then on no time passes any
more (`System.RefusedUpdate`).  A run takes up what its time is worth before it is refused for any
reason: a negative time takes a part of the fraction that is owed, and an infinite one all of it
(`System.RefusedRun`).  Nothing else changes. -/

namespace ChipEight

namespace Number

variable {a b elapsed clock : Number} {f x : Float} {X : ℚ}

/-- No time: negative, infinite or not a number. -/
def Impossible (elapsed : Number) : Prop :=
  elapsed.lt (.int 0) = true ∨ ∃ f, elapsed.toFloat? = some f ∧ ¬ f.isFinite = true

/-- A product as a float, of two integers or of two floats. -/
theorem mul?_toFloat? (h : (a.mul? b).bind toFloat? = some f) :
    (∃ i j, a = .int i ∧ b = .int j ∧ floatOfInt? (i * j) = some f) ∨
      ∃ x y, a.toFloat? = some x ∧ b.toFloat? = some y ∧ f = x * y := by
  have floats (stored : ((do
      let x ← a.toFloat?
      let y ← b.toFloat?
      return .float (x * y)) : Option Number).bind toFloat? = some f) :
      ∃ x y, a.toFloat? = some x ∧ b.toFloat? = some y ∧ f = x * y := by
    cases left : a.toFloat? with
    | none =>
      rw [left] at stored
      cases stored
    | some x =>
      cases right : b.toFloat? with
      | none =>
        rw [left, right] at stored
        cases stored
      | some y =>
        rw [left, right] at stored
        exact ⟨x, y, rfl, rfl, (Option.some.inj stored).symm⟩
  cases a with
  | float f => exact .inr (floats h)
  | int i =>
    cases b with
    | float g => exact .inr (floats h)
    | int j => exact .inl ⟨i, j, rfl, rfl, h⟩

theorem nonpos_of_lt (negative : elapsed.lt (.int 0) = true) (stored : elapsed.toFloat? = some x)
    (value : value? x = some X) : X ≤ 0 := by
  cases elapsed with
  | float f =>
    obtain rfl := Option.some.inj stored
    by_contra above
    rw [lt_of_nonneg value (not_le.mp above).le] at negative
    cases negative
  | int i =>
    rw [int_lt_zero, decide_eq_true_iff] at negative
    exact (rounds_of_floatOfInt? stored value).le_of_le rounds_zero (by exact_mod_cast negative.le)

/-- What a negative time is worth is not above zero. -/
theorem nonpos_of_mul? (negative : elapsed.lt (.int 0) = true) (above : clock.le (.int 0) = false)
    (worth : (elapsed.mul? clock).bind toFloat? = some f) (value : value? f = some X) : X ≤ 0 := by
  rcases mul?_toFloat? worth with ⟨i, j, rfl, rfl, stored⟩ | ⟨x, y, left, right, rfl⟩
  · rw [int_lt_zero, decide_eq_true_iff] at negative
    rw [int_le_zero, decide_eq_false_iff_not, not_le] at above
    have product : i * j ≤ 0 := mul_nonpos_of_nonpos_of_nonneg negative.le above.le
    exact (rounds_of_floatOfInt? stored value).le_of_le rounds_zero (by exact_mod_cast product)
  · have finite : (x * y).isFinite = true := (isFinite_iff _).mpr ⟨X, value⟩
    obtain ⟨V, W, left_, right_⟩ := values_of_mul finite
    have low := nonpos_of_lt negative left left_
    have high := (rate_value above right right_).1
    exact ((mul_renders left_ right_).rounds value).le_of_le rounds_zero
      (mul_nonpos_of_nonpos_of_nonneg low high.le)

end Number

namespace Timers

open Number

variable {carried interval : Float} {elapsed : Number} {e : Failure}

theorem wholeTicks_endless (endless : ¬ carried.isFinite = true) (interval : Float) :
    ∃ e, wholeTicks carried interval = .error e := by
  rw [wholeTicks, floorQuotient_not_finite endless]
  split
  · exact ⟨_, rfl⟩
  · exact ⟨_, rfl⟩

/-- A time is refused before it is collected, or after that, or it is paid out. -/
theorem account_cases (carried interval : Float) (elapsed : Number) :
    (∃ e, (elapsed.lt (.int 0) = true ∨ elapsed.toFloat? = none) ∧
      account carried interval elapsed = (carried, .error e)) ∨
    ∃ seconds, elapsed.lt (.int 0) = false ∧ elapsed.toFloat? = some seconds ∧
      ((∃ e, account carried interval elapsed = (carried + seconds, .error e)) ∨
        ∃ left_ ticks, wholeTicks (carried + seconds) interval = .ok ticks ∧
          account carried interval elapsed = (left_, .ok ticks)) := by
  rw [account]
  cases negative : elapsed.lt (.int 0) with
  | true => exact .inl ⟨_, .inl rfl, if_pos rfl⟩
  | false =>
    rw [if_neg Bool.false_ne_true]
    cases stored : elapsed.toFloat? with
    | none => exact .inl ⟨_, .inr rfl, rfl⟩
    | some seconds =>
      refine .inr ⟨seconds, rfl, rfl, ?_⟩
      dsimp only
      cases wholeTicks (carried + seconds) interval with
      | error e => exact .inl ⟨e, rfl⟩
      | ok ticks =>
        dsimp only
        cases floatOfInt? ticks with
        | none => exact .inl ⟨_, rfl⟩
        | some p => exact .inr ⟨_, ticks, rfl, rfl⟩

/-- What an account leaves that is refused: the time carried, and the time told of on top unless it
is negative or no float. -/
theorem account_refused (refused : (account carried interval elapsed).2 = .error e) :
    (elapsed.lt (.int 0) = true ∨ elapsed.toFloat? = none →
      (account carried interval elapsed).1 = carried) ∧
    (elapsed.lt (.int 0) = false → ∀ seconds, elapsed.toFloat? = some seconds →
      (account carried interval elapsed).1 = carried + seconds) := by
  rcases account_cases carried interval elapsed with
    ⟨e, before, same⟩ | ⟨seconds, forwards, stored, ⟨e, same⟩ | ⟨left_, ticks, -, same⟩⟩
  · rw [same]
    exact ⟨fun _ => rfl, fun nonneg seconds stored => by simp [nonneg, stored] at before⟩
  · rw [same]
    exact ⟨fun before => by simp [forwards, stored] at before,
      fun _ seconds' same => by rw [stored] at same; cases same; rfl⟩
  · rw [same] at refused
    cases refused

/-- **Where the time carried is not finite every account is refused**, and leaves it so. -/
theorem account_endless (endless : ¬ carried.isFinite = true) (interval : Float)
    (elapsed : Number) : (account carried interval elapsed).2.isOk = false ∧
      ¬ (account carried interval elapsed).1.isFinite = true := by
  rcases account_cases carried interval elapsed with
    ⟨e, -, same⟩ | ⟨seconds, -, -, ⟨e, same⟩ | ⟨left_, ticks, paid, -⟩⟩
  · rw [same]
    exact ⟨rfl, endless⟩
  · rw [same]
    exact ⟨rfl, add_not_finite (.inl endless)⟩
  · obtain ⟨e, refused⟩ := wholeTicks_endless (add_not_finite (.inl endless)) interval
    rw [refused] at paid
    cases paid

theorem pay_endless (endless : ¬ carried.isFinite = true) (interval : Float)
    (times : List Number) : ¬ (pay interval carried times).1.isFinite = true := by
  induction times generalizing carried with
  | nil => exact endless
  | cons elapsed rest ih => exact ih (account_endless endless interval elapsed).2

theorem account_impossible (impossible : elapsed.Impossible) (carried interval : Float) :
    (account carried interval elapsed).2.isOk = false := by
  rcases account_cases carried interval elapsed with
    ⟨e, -, same⟩ | ⟨seconds, forwards, stored, ⟨e, same⟩ | ⟨left_, ticks, paid, -⟩⟩
  · rw [same]
    rfl
  · rw [same]
    rfl
  · rcases impossible with negative | ⟨f, stored', endless⟩
    · rw [forwards] at negative
      cases negative
    · rw [stored] at stored'
      cases stored'
      obtain ⟨e, refused⟩ := wholeTicks_endless (add_not_finite (.inr endless)) interval
      rw [refused] at paid
      cases paid

end Timers

namespace System

open Number

variable {config : MachineConfig} {s t u : System} {elapsed : Number} {e : Failure}

/-! ## Updates -/

/-- The system with another time in its timers. -/
def carrying (s : System) (carried : Float) : System :=
  { s with machine := { s.machine with timers := { s.machine.timers with carried } } }

theorem updateTimers_of_error (refused : (s.updateTimers elapsed).2 = .error e) :
    (s.updateTimers elapsed).1 = s.carrying
      (Timers.account s.machine.timers.carried s.machine.timers.interval elapsed).1 := by
  have answer := (s.updateTimers_pays elapsed).1
  rw [refused] at answer
  have settled := s.machine.timers.update_eq elapsed
  rw [show Timers.account s.machine.timers.carried s.machine.timers.interval elapsed =
    (_, .error e) from Prod.ext rfl answer.symm, Timers.settle_error] at settled
  rw [updateTimers, settled]
  rfl

/-- Until the next load or reset the timers refuse every time. -/
def TimersStuck (t : System) : Prop :=
  ∀ asked, (∀ request ∈ asked, RequestGoesOn request.2) →
    ∀ later, ((t.serveAll asked).updateTimers later).2.isOk = false

theorem timersStuck_of_endless (endless : ¬ t.machine.timers.carried.isFinite = true) :
    t.TimersStuck := by
  intro asked goesOn later
  have paid := (turns_paid (s := t) (goesOn_turnsOf (s := t) goesOn)).pay
  rw [← serveAll_turns] at paid
  have carried := Timers.pay_endless endless t.machine.timers.interval
    (elapsedOf (t.turnsOf asked))
  rw [paid] at carried
  rw [((t.serveAll asked).updateTimers_pays later).1]
  exact (Timers.account_endless carried _ later).1

/-- What an update leaves that is refused: only the time carried can be another, and it is if the
time told of is a float that is not negative. -/
structure RefusedUpdate (s : System) (elapsed : Number) (t : System) : Prop where
  only : t = s.carrying t.machine.timers.carried
  kept : elapsed.lt (.int 0) = true ∨ elapsed.toFloat? = none → t = s
  taken : elapsed.lt (.int 0) = false → ∀ seconds, elapsed.toFloat? = some seconds →
    t.machine.timers.carried = s.machine.timers.carried + seconds
  stuck : ¬ t.machine.timers.carried.isFinite = true → t.TimersStuck

theorem refusedUpdate (refused : (s.updateTimers elapsed).2 = .error e) :
    s.RefusedUpdate elapsed (s.updateTimers elapsed).1 := by
  have answer := (s.updateTimers_pays elapsed).1
  rw [refused] at answer
  obtain ⟨kept, taken⟩ := Timers.account_refused answer.symm
  have left_ := updateTimers_of_error refused
  rw [left_]
  exact ⟨rfl, fun either => by rw [kept either]; rfl, taken, timersStuck_of_endless⟩

theorem updateTimers_impossible (impossible : elapsed.Impossible) (s : System) :
    (s.updateTimers elapsed).2.isOk = false := by
  rw [(s.updateTimers_pays elapsed).1]
  exact Timers.account_impossible impossible _ _

theorem updateTimers_negative (negative : elapsed.lt (.int 0) = true) :
    (s.updateTimers elapsed).1 = s := by
  cases answer : (s.updateTimers elapsed).2 with
  | error e => exact (refusedUpdate answer).kept (.inl negative)
  | ok ticks =>
    have refused := updateTimers_impossible (.inl negative) s
    rw [answer] at refused
    cases refused

/-! ## Runs -/

/-- Until the next load or reset no run for a time is granted. -/
def RunsStuck (t : System) : Prop :=
  ∀ asked, (∀ request ∈ asked, RequestGoesOn request.2) →
    ∀ later, ((t.serveAll asked).runFor later).2.isOk = false

/-- A run takes the whole steps off what is owed and does them. -/
def DoesSteps (s : System) (elapsed : Number) (u : System)
    (answer : Except Failure (Array StepReport)) : Prop :=
  ∃ owed cycles p, s.owe elapsed = .ok owed ∧ truncate? owed = some cycles ∧
    floatOfInt? cycles = some p ∧
    runSteps cycles.toNat { s with debt := owed - p } #[] = (u, answer)

/-- No float says what the time is worth, or none says how many steps are owed, or there are steps
to do. -/
theorem runFor_cases (s : System) (elapsed : Number) : s.owe elapsed = .error .beyondRange ∨
    (∃ owed, s.owe elapsed = .ok owed ∧ ¬ owed.isFinite = true) ∨
    ∃ u answer, s.DoesSteps elapsed u answer := by
  cases owes : s.owe elapsed with
  | error e =>
    rw [owe] at owes
    split at owes
    · cases owes
    · cases owes
      exact .inl rfl
  | ok owed =>
    cases whole : truncate? owed with
    | none => exact .inr (.inl ⟨owed, rfl, truncate?_eq_none.mp whole⟩)
    | some cycles =>
      obtain ⟨-, p, -, stored, -⟩ := truncate?_parts whole
      exact .inr (.inr ⟨_, _, owed, cycles, p, owes, whole, stored, rfl⟩)

theorem runFor_unsaid (unsaid : s.owe elapsed = .error e) :
    s.runFor elapsed = (s, .error e) := by
  rw [runFor, unsaid]

theorem runFor_endless {owed : Float} (owes : s.owe elapsed = .ok owed)
    (endless : ¬ owed.isFinite = true) :
    ∃ e, s.runFor elapsed = ({ s with debt := owed }, .error e) := by
  rw [runFor, owes]
  dsimp only
  rw [truncate?_not_finite endless]
  exact ⟨_, rfl⟩

theorem DoesSteps.breaksOff (steps : s.DoesSteps elapsed u (.error e)) :
    s.runFor elapsed = (u, .error e) := by
  obtain ⟨owed, cycles, p, owes, whole, stored, ran⟩ := steps
  simp only [runFor, owes, whole, stored, Option.getD_some, ran]

theorem DoesSteps.runFor {reports : Array StepReport}
    (steps : s.DoesSteps elapsed u (.ok reports)) : s.runFor elapsed =
      ((u.updateTimers elapsed).1, (u.updateTimers elapsed).2.map fun _ => reports) := by
  obtain ⟨owed, cycles, p, owes, whole, stored, ran⟩ := steps
  simp only [System.runFor, owes, whole, stored, Option.getD_some, ran]
  rcases u.updateTimers elapsed with ⟨t, e | ticks⟩ <;> rfl

theorem runsStuck_of_endless (endless : ¬ t.debt.isFinite = true) : t.RunsStuck := by
  intro asked goesOn later
  have endless := serveAll_endless endless goesOn
  cases owes : (t.serveAll asked).owe later with
  | error e =>
    rw [runFor_unsaid owes]
    rfl
  | ok owed =>
    obtain ⟨e, refused⟩ := runFor_endless owes (owe_endless endless owes)
    rw [refused]
    rfl

/-- What a run leaves that its time has made fail. -/
inductive RefusedRun (s : System) (elapsed : Number) (t : System) : Prop where
  /-- No float says what the time is worth. -/
  | unsaid : s.owe elapsed = .error .beyondRange → t = s → RefusedRun s elapsed t
  /-- What is owed is not finite any more, and stays so. -/
  | endless : t = { s with debt := t.debt } → ¬ t.debt.isFinite = true → t.RunsStuck →
      RefusedRun s elapsed t
  /-- The steps are done and taken off what is owed, and only the timers refuse the time. -/
  | late {u : System} {reports : Array StepReport} : s.DoesSteps elapsed u (.ok reports) →
      u.RefusedUpdate elapsed t → RefusedRun s elapsed t

/-- A run that fails breaks off at a step, or its time is refused. -/
theorem runFor_fails (refused : (s.runFor elapsed).2 = .error e) :
    s.DoesSteps elapsed (s.runFor elapsed).1 (.error e) ∨
      s.RefusedRun elapsed (s.runFor elapsed).1 := by
  rcases s.runFor_cases elapsed with unsaid | ⟨owed, owes, endless⟩ | ⟨u, e' | reports, steps⟩
  · rw [runFor_unsaid unsaid]
    exact .inr (.unsaid unsaid rfl)
  · obtain ⟨e, left_⟩ := runFor_endless owes endless
    rw [left_]
    exact .inr (.endless rfl endless (runsStuck_of_endless endless))
  · rw [steps.breaksOff] at refused ⊢
    cases refused
    exact .inl steps
  · rw [steps.runFor] at refused ⊢
    cases answer : (u.updateTimers elapsed).2 with
    | error e' => exact .inr (.late steps (refusedUpdate answer))
    | ok ticks =>
      dsimp only at refused
      rw [answer] at refused
      cases refused

theorem runFor_impossible (impossible : elapsed.Impossible) (s : System) :
    (s.runFor elapsed).2.isOk = false := by
  rcases s.runFor_cases elapsed with unsaid | ⟨owed, owes, endless⟩ | ⟨u, e | reports, steps⟩
  · rw [runFor_unsaid unsaid]
    rfl
  · obtain ⟨e, left_⟩ := runFor_endless owes endless
    rw [left_]
    rfl
  · rw [steps.breaksOff]
    rfl
  · rw [steps.runFor]
    have refused := updateTimers_impossible impossible u
    cases answer : (u.updateTimers elapsed).2 with
    | error e => rfl
    | ok ticks =>
      rw [answer] at refused
      cases refused

/-! ## Negative times -/

/-- A negative time is worth no step, whatever is owed on top. -/
theorem whole_nonpos {owed : Float} {cycles : Int} (fractional : Fractional s.debt)
    (forwards : s.clock.le (.int 0) = false) (negative : elapsed.lt (.int 0) = true)
    (owes : s.owe elapsed = .ok owed) (whole : truncate? owed = some cycles) : cycles ≤ 0 := by
  obtain ⟨V, p, value, -, -, close, le⟩ := truncate?_parts whole
  have finite := (isFinite_iff owed).mpr ⟨V, value⟩
  rw [owe] at owes
  split at owes
  · rename_i steps worth
    cases owes
    obtain ⟨D, X, debt, extra⟩ := values_of_add finite
    have low := nonpos_of_mul? negative forwards worth extra
    have below : V ≤ D := ((add_renders debt extra).rounds value).of_le debt (by linarith)
    -- a whole part above zero would be at most what is owed, and that is less than one
    by_contra above
    have one : (1 : ℚ) ≤ cycles := by exact_mod_cast not_le.mp above
    have part := (abs_lt.mp close).1
    rw [abs_of_nonneg (by linarith), abs_of_nonneg (by linarith)] at le
    linarith [(abs_lt.mp (fractional D debt)).2]
  · cases owes

theorem owe_not_finite {seconds owed : Float} (stored : elapsed.toFloat? = some seconds)
    (endless : ¬ seconds.isFinite = true) (owes : s.owe elapsed = .ok owed) :
    ¬ owed.isFinite = true := by
  rw [owe] at owes
  split at owes
  · rename_i steps worth
    cases owes
    refine add_not_finite (.inr ?_)
    rcases mul?_toFloat? worth with ⟨i, j, rfl, -, -⟩ | ⟨x, y, left_, -, rfl⟩
    · exact absurd (floatOfInt?_finite stored) endless
    · rw [stored] at left_
      cases left_
      exact mul_not_finite (.inl endless)
  · cases owes

/-- **A time that is none does no step**: a run for it changes what is owed, and nothing else. -/
theorem runFor_still (fractional : Fractional s.debt) (impossible : elapsed.Impossible)
    (forwards : s.clock.le (.int 0) = false) :
    (s.runFor elapsed).1 = { s with debt := (s.runFor elapsed).1.debt } := by
  rcases s.runFor_cases elapsed with unsaid | ⟨owed, owes, endless⟩ | ⟨u, answer, steps⟩
  · rw [runFor_unsaid unsaid]
  · obtain ⟨e, left_⟩ := runFor_endless owes endless
    rw [left_]
  · obtain ⟨owed, cycles, p, owes, whole, -, ran⟩ := id steps
    have negative := impossible.resolve_right fun ⟨f, stored, endless⟩ => by
      rw [truncate?_not_finite (owe_not_finite stored endless owes)] at whole
      cases whole
    rw [Int.toNat_eq_zero.mpr (whole_nonpos fractional forwards negative owes whole)] at ran
    cases ran
    rw [steps.runFor]
    dsimp only
    rw [updateTimers_negative negative]

/-- What a system does with a time that it refuses, as it is told of it or runs for it. -/
structure RefusesTime (s : System) (elapsed : Number) : Prop where
  update : ∀ e, (s.updateTimers elapsed).2 = .error e →
    s.RefusedUpdate elapsed (s.updateTimers elapsed).1
  run : ∀ e, (s.runFor elapsed).2 = .error e →
    s.DoesSteps elapsed (s.runFor elapsed).1 (.error e) ∨
      s.RefusedRun elapsed (s.runFor elapsed).1
  impossible : elapsed.Impossible →
    (s.updateTimers elapsed).2.isOk = false ∧ (s.runFor elapsed).2.isOk = false
  still : elapsed.Impossible → s.clock.le (.int 0) = false →
    (s.runFor elapsed).1 = { s with debt := (s.runFor elapsed).1.debt }

/-- **What a refused time leaves behind.**  Whatever has been asked of a system before: an update
that is refused changes the time carried and nothing else, and leaves even that if the time is
negative; a run that is refused without doing a step changes what is owed and nothing else.  A time
that is negative, infinite or not a number is always refused.  What is left is lasting: where it is
not finite, all times after it are refused. -/
theorem refused_time (lives : Lives config s) (elapsed : Number) : s.RefusesTime elapsed where
  update _ := refusedUpdate
  run _ := runFor_fails
  impossible none_ := ⟨updateTimers_impossible none_ s, runFor_impossible none_ s⟩
  still none_ := runFor_still lives.fractional none_

/-- A jump to itself, and a run that leaves about a third of a step. -/
def lags : List Asked := [({}, .loadProgram [0x12, 0x52]), ({}, .runFor (.float 0.0005))]

theorem refused_time_lags : ∃ s : System, (small.boot default).2 = .ok s ∧
    Lives small (s.serveAll lags) ∧ (s.serveAll lags).RefusesTime (.float (-0.001)) := by
  obtain ⟨s, booted⟩ : ∃ s, (small.boot default).2 = .ok s := ⟨_, rfl⟩
  have lives : Lives small (s.serveAll lags) :=
    .serve {} (.runFor (.float 0.0005)) (.serve {} (.loadProgram [0x12, 0x52]) (.boot booted))
  exact ⟨s, booted, lives, refused_time lives _⟩

/-- **A refused time remains.**  After an infinite time, half a second that was worth thirty ticks is
refused, and after a negative run, two thousandths of a second that were worth a step are worth
none. -/
theorem refused_time_remains : ∃ s t : System, (small.boot default).2 = .ok s ∧
    s.loadProgram [0x12, 0x52] = (t, .ok ()) ∧
    (t.updateTimers (.float (infinity false))).2.isOk = false ∧
    (t.updateTimers (.float 0.5)).2.toOption = some 30 ∧
    ((t.updateTimers (.float (infinity false))).1.updateTimers (.float 0.5)).2.isOk = false ∧
    (t.runFor (.float (-0.001))).2.isOk = false ∧
    (t.runFor (.float 0.002)).2.toOption.map Array.size = some 1 ∧
    ((t.runFor (.float (-0.001))).1.runFor (.float 0.002)).2.toOption.map Array.size = some 0 := by
  obtain ⟨s, booted⟩ : ∃ s, (small.boot default).2 = .ok s := ⟨_, rfl⟩
  obtain ⟨t, loaded⟩ : ∃ t, s.loadProgram [0x12, 0x52] = (t, .ok ()) := by
    cases booted
    exact ⟨_, rfl⟩
  refine ⟨s, t, booted, loaded, ?_⟩
  cases booted
  cases loaded
  refine ⟨?_, ?_, ?_, ?_, ?_, ?_⟩ <;> decide +kernel

end System
end ChipEight
