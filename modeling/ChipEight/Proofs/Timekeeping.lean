import ChipEight.Proofs.FreshStart
import ChipEight.Proofs.Peripherals
import ChipEight.Proofs.Ticking
/-! # Time and the timers

The timers follow the time that passes for them, and nothing else: what an update answers, what is
carried over and how many ticks there were is a matter between the length of a tick and the times
given (`System.turns_paid`), whatever is executed and whichever keys go up or down in between.  The
delay timer counts down from what was last written to it (`System.turns_delay`).
`System.timers_follow_time` puts two systems side by side. -/

namespace ChipEight

namespace Timers

/-- What times, one after the other, make of the time carried, and what is answered. -/
def pay (interval : Float) : Float → List Number → Float × List (Except Failure Int)
  | carried, [] => (carried, [])
  | carried, elapsed :: rest =>
    let paid := account carried interval elapsed
    let later := pay interval paid.1 rest
    (later.1, paid.2 :: later.2)

/-- The ticks that answers stand for. -/
def ticksOf : List (Except Failure Int) → Nat
  | [] => 0
  | answer :: rest => worth answer + ticksOf rest

end Timers

namespace System

/-- Neither load nor reset. -/
def Turn.GoesOn : Turn → Prop
  | .step | .host _ | .owe _ => True
  | _ => False

/-- The time that a turn passes to the timers. -/
def Turn.elapsed? : Turn → Option Number
  | .host (.updateTimers elapsed) => some elapsed
  | _ => none

/-- The times that are passed to the timers, one after the other. -/
def elapsedOf (turns : List Turn) : List Number := turns.filterMap Turn.elapsed?

variable {s : System} {turn_ : Turn} {turns : List Turn} {config config' : MachineConfig}

/-- What a turn that passes time answers. -/
def answer? (s : System) (turn_ : Turn) : Option (Except Failure Int) :=
  turn_.elapsed?.map fun elapsed => (s.updateTimers elapsed).2

/-- What the updates among some turns answer. -/
def answersOf (s : System) : List Turn → List (Except Failure Int)
  | [] => []
  | turn_ :: rest => (s.answer? turn_).toList ++ (s.turn turn_).answersOf rest

/-- The delay timer is written to among some turns. -/
def WritesDelay (s : System) : List Turn → Prop
  | [] => False
  | turn_ :: rest =>
    (∃ x, turn_ = .step ∧ s.Executes (.setDelay x) s.step.1) ∨ (s.turn turn_).WritesDelay rest

/-! ## Turns -/

theorem not_restarts (goesOn : turn_.GoesOn) : ¬ s.Restarts turn_ := by
  cases turn_ with
  | step | host action | owe debt => exact id
  | _ => exact goesOn.elim

/-- Without step and without time, timers that go on stay as they are. -/
theorem turn_rests (goesOn : turn_.GoesOn) (untimed : turn_.elapsed? = none)
    (other : turn_ ≠ .step) : (s.turn turn_).machine.timers = s.machine.timers := by
  rcases s.turn_timers other with ⟨restarts, -⟩ | ⟨elapsed, rfl⟩ | ⟨-, same⟩
  · exact absurd restarts (not_restarts goesOn)
  · cases untimed
  · exact same

/-- Without time, only the two counters can change. -/
theorem turn_untimed (goesOn : turn_.GoesOn) (untimed : turn_.elapsed? = none) :
    (s.turn turn_).machine.timers = { s.machine.timers with
      delay := (s.turn turn_).machine.timers.delay
      sound := (s.turn turn_).machine.timers.sound } := by
  by_cases stepping : turn_ = .step
  · subst stepping
    rw [turn, step_timers]
    cases s.executed? .step with
    | none => rfl
    | some op => cases op <;> rfl
  · rw [turn_rests goesOn untimed stepping]

/-- Without time, only a write changes the delay timer. -/
theorem turn_delay (goesOn : turn_.GoesOn) (untimed : turn_.elapsed? = none)
    (unwritten : ¬ s.WritesDelay [turn_]) :
    (s.turn turn_).machine.timers.delay = s.machine.timers.delay := by
  by_cases stepping : turn_ = .step
  · subst stepping
    rw [turn, step_timers]
    cases executed : s.executed? .step with
    | none => rfl
    | some op =>
      cases op with
      | setDelay x => exact absurd (.inl ⟨x, executed?_eq_some_iff.mp executed⟩) unwritten
      | _ => rfl
  · rw [turn_rests goesOn untimed stepping]

theorem elapsed?_eq_some {elapsed : Number} (timed : turn_.elapsed? = some elapsed) :
    turn_ = .host (.updateTimers elapsed) := by
  cases turn_ with
  | host action =>
    cases action with
    | updateTimers _ =>
      cases timed
      rfl
    | _ => cases timed
  | _ => cases timed

/-- Time that passes counts the timers down by the ticks that it is worth. -/
theorem updateTimers_pays (s : System) (elapsed : Number) :
    let paid := Timers.account s.machine.timers.carried s.machine.timers.interval elapsed
    let timers := (s.updateTimers elapsed).1.machine.timers
    (s.updateTimers elapsed).2 = paid.2 ∧
    timers.interval = s.machine.timers.interval ∧ timers.carried = paid.1 ∧
    timers.ticks = s.machine.timers.ticks + Timers.worth paid.2 ∧
    timers.delay = Timers.countDown s.machine.timers.delay (Timers.worth paid.2) := by
  obtain ⟨answer, left⟩ := s.updateTimers_eq elapsed
  rw [Timers.update_eq] at answer left
  intro paid timers
  refine ⟨answer, ?_⟩
  rw [show timers = _ from left]
  exact ⟨rfl, rfl, rfl, rfl⟩

/-! ## Runs -/

theorem elapsedOf_untimed (untimed : turn_.elapsed? = none) :
    elapsedOf (turn_ :: turns) = elapsedOf turns := List.filterMap_cons_none untimed

theorem answersOf_untimed (untimed : turn_.elapsed? = none) :
    s.answersOf (turn_ :: turns) = (s.turn turn_).answersOf turns := by
  rw [answersOf, answer?, untimed]
  rfl

theorem answersOf_update (s : System) (elapsed : Number) (turns : List Turn) :
    s.answersOf (.host (.updateTimers elapsed) :: turns) =
      (s.updateTimers elapsed).2 :: (s.updateTimers elapsed).1.answersOf turns := rfl

/-- What times and their answers have made of the time carried and of the ticks. -/
structure Paid (s : System) (times : List Number) (answers : List (Except Failure Int))
    (t : System) : Prop where
  pay : Timers.pay s.machine.timers.interval s.machine.timers.carried times =
    (t.machine.timers.carried, answers)
  ticks : t.machine.timers.ticks = s.machine.timers.ticks + Timers.ticksOf answers

/-- **Only the times given count** for what updates answer, what is carried and the ticks. -/
theorem turns_paid (goesOn : ∀ turn_ ∈ turns, turn_.GoesOn) :
    s.Paid (elapsedOf turns) (s.answersOf turns) (turns.foldl turn s) := by
  induction turns generalizing s with
  | nil => exact ⟨rfl, rfl⟩
  | cons turn_ turns ih =>
    rw [List.forall_mem_cons] at goesOn
    obtain ⟨pay, ticks⟩ := ih (s := s.turn turn_) goesOn.2
    cases timed : turn_.elapsed? with
    | none =>
      rw [turn_untimed goesOn.1 timed] at pay ticks
      rw [elapsedOf_untimed timed, answersOf_untimed timed]
      exact ⟨pay, ticks⟩
    | some elapsed =>
      obtain rfl := elapsed?_eq_some timed
      obtain ⟨answer, interval, carried, paid, -⟩ := s.updateTimers_pays elapsed
      rw [turn, host] at pay ticks
      rw [interval, carried] at pay
      rw [answersOf_update, answer]
      refine ⟨?_, ?_⟩
      · change Timers.pay _ _ (elapsed :: elapsedOf turns) = _
        rw [Timers.pay, pay]
        rfl
      · rw [Timers.ticksOf, ← Nat.add_assoc, ← paid]
        exact ticks

/-- **The delay timer counts down** with the ticks while nobody writes to it. -/
theorem turns_delay (goesOn : ∀ turn_ ∈ turns, turn_.GoesOn) (unwritten : ¬ s.WritesDelay turns) :
    (turns.foldl turn s).machine.timers.delay =
      Timers.countDown s.machine.timers.delay (Timers.ticksOf (s.answersOf turns)) := by
  induction turns generalizing s with
  | nil => exact (Timers.countDown_zero _).symm
  | cons turn_ turns ih =>
    rw [List.forall_mem_cons] at goesOn
    rw [WritesDelay, not_or] at unwritten
    rw [List.foldl_cons, ih goesOn.2 unwritten.2]
    cases timed : turn_.elapsed? with
    | none =>
      have unwritten : ¬ s.WritesDelay [turn_] := fun writes => writes.elim unwritten.1 id
      rw [turn_delay goesOn.1 timed unwritten, answersOf_untimed timed]
    | some elapsed =>
      obtain rfl := elapsed?_eq_some timed
      obtain ⟨answer, -, -, -, delay⟩ := s.updateTimers_pays elapsed
      rw [answersOf_update, Timers.ticksOf, answer, ← Timers.countDown_countDown, ← delay]
      rfl

/-! ## Two systems side by side -/

/-- A system that has just been given a program, whatever has happened to it before. -/
def FreshlyLoaded (config : MachineConfig) (s : System) : Prop :=
  ∃ o s₀ past load, (config.boot o).2 = .ok s₀ ∧ (s₀.run past).2.Loads load ∧
    s = (s₀.run past).2.happen load

/-- Timers that stand still, with the ticks of a configuration before them. -/
structure Idle (config : MachineConfig) (t : Timers) : Prop where
  interval : ∃ rate, config.timerRate.toFloat? = some rate ∧ t.interval = 1.0 / rate
  delay : t.delay = 0
  carried : t.carried = 0.0
  ticks : t.ticks = 0

theorem restarts_timers (restarts : s.Restarts turn_) :
    (s.turn turn_).machine.timers = s.machine.timers.reset := by
  have other : turn_ ≠ .step := by
    rintro rfl
    exact restarts
  rcases s.turn_timers other with ⟨-, reset⟩ | ⟨elapsed, rfl⟩ | ⟨plain, -⟩
  · exact reset
  · exact restarts.elim
  · exact absurd restarts plain

theorem loads_timers {load : Happening} (loads : s.Loads load) :
    (s.happen load).machine.timers = s.machine.timers.reset := by
  match load, loads with
  | .asked files (.system (.loadProgram program)), granted =>
    have restarts : s.Restarts (.loadProgram program) := granted
    rw [happen, ask_system]
    exact restarts_timers restarts
  | .asked files (.system (.loadRom path)), granted =>
    have restarts : s.Restarts (.loadRom files path) := granted
    rw [happen, ask_system]
    exact restarts_timers restarts

theorem FreshlyLoaded.idle (loaded : FreshlyLoaded config s) : Idle config s.machine.timers := by
  obtain ⟨o, s₀, past, load, booted, loads, rfl⟩ := loaded
  have interval := (s₀.run_lasts past).machine.timers.interval
  have created := (boot_equipped booted).timers
  rw [Timers.create] at created
  split at created
  · cases created
  cases rate : config.timerRate.toFloat? with
  | none =>
    rw [rate] at created
    cases created
  | some r =>
    rw [rate] at created
    rw [loads_timers loads]
    refine ⟨⟨r, rate, ?_⟩, rfl, rfl, rfl⟩
    rw [Timers.reset, interval, ← Except.ok.inj created]

/-- The delay timer shows what was last written to it, less the ticks since then, and nothing before
the first write. -/
structure KeepsDelay (s : System) (turns : List Turn) : Prop where
  written : ∀ {before since x}, turns = before ++ .step :: since →
    let u := before.foldl turn s
    let t := turns.foldl turn s
    let n := Timers.ticksOf (u.step.1.answersOf since)
    u.Executes (.setDelay x) u.step.1 → ¬ u.step.1.WritesDelay since →
      t.machine.timers.ticks = u.machine.timers.ticks + n ∧
      t.machine.timers.delay.toNat = (u.machine.registers.get x).toNat - n
  unwritten : ¬ s.WritesDelay turns → (turns.foldl turn s).machine.timers.delay = 0

theorem keepsDelay (idle : Idle config s.machine.timers)
    (goesOn : ∀ turn_ ∈ turns, turn_.GoesOn) : s.KeepsDelay turns := by
  refine ⟨?_, fun unwritten => ?_⟩
  · rintro before since x rfl u t n executes unwritten
    have later : ∀ turn_ ∈ since, turn_.GoesOn :=
      fun turn_ mem => goesOn turn_ (List.mem_append_right _ (List.mem_cons_of_mem _ mem))
    have touches := executed_touches (executed?_eq_some_iff.mpr ⟨rfl, executes⟩)
    have timers : u.step.1.machine.timers =
        { u.machine.timers with delay := u.machine.registers.get x } := touches.timers
    have after : t = since.foldl turn u.step.1 := List.foldl_append
    have ticks := (turns_paid (s := u.step.1) later).ticks
    rw [← after, timers] at ticks
    have delay := turns_delay (s := u.step.1) later unwritten
    rw [← after, timers] at delay
    exact ⟨ticks, by rw [delay, Timers.toNat_countDown]⟩
  · rw [turns_delay goesOn unwritten, idle.delay, ← UInt8.toNat_inj, Timers.toNat_countDown]
    exact Nat.zero_sub _

/-- **The timers follow time, not instructions.**  Two systems of one timer rate that have just been
given a program, and go on until they are loaded or reset: while they are told of the same times they
give the same answers, count the same ticks and carry the same remainder, whatever else they do. -/
theorem timers_follow_time {s' : System} {turns' : List Turn}
    (rate : config.timerRate.toFloat? = config'.timerRate.toFloat?)
    (loaded : FreshlyLoaded config s) (loaded' : FreshlyLoaded config' s')
    (goesOn : ∀ turn_ ∈ turns, turn_.GoesOn) (goesOn' : ∀ turn_ ∈ turns', turn_.GoesOn)
    (times : elapsedOf turns = elapsedOf turns') :
    let t := turns.foldl turn s
    let t' := turns'.foldl turn s'
    s.answersOf turns = s'.answersOf turns' ∧
    t.machine.timers.ticks = t'.machine.timers.ticks ∧
    t.machine.timers.carried = t'.machine.timers.carried ∧
    s.KeepsDelay turns ∧ s'.KeepsDelay turns' := by
  intro t t'
  have idle := loaded.idle
  have idle' := loaded'.idle
  obtain ⟨pay, ticks⟩ := turns_paid (s := s) goesOn
  obtain ⟨pay', ticks'⟩ := turns_paid (s := s') goesOn'
  have interval : s.machine.timers.interval = s'.machine.timers.interval := by
    obtain ⟨r, known, interval⟩ := idle.interval
    obtain ⟨r', known', interval'⟩ := idle'.interval
    rw [← rate, known] at known'
    rw [interval, interval', Option.some.inj known']
  rw [idle.carried, times, interval] at pay
  rw [idle'.carried, pay] at pay'
  obtain ⟨carried, answers⟩ := Prod.mk.inj pay'
  rw [idle.ticks, answers] at ticks
  rw [idle'.ticks] at ticks'
  exact ⟨answers, ticks.trans ticks'.symm, carried, keepsDelay idle goesOn, keepsDelay idle' goesOn'⟩

/-- A new system that is given a program that fits. -/
theorem freshlyLoaded_boot {o : Observers} (booted : (config.boot o).2 = .ok s)
    (program : List UInt8) (fits : program.length ≤ config.memorySize - config.programStart) :
    FreshlyLoaded config (s.loadProgram program).1 := by
  rw [← boot_capacity booted] at fits
  obtain ⟨memory, loaded⟩ := Memory.loadRom_of_fits fits
  refine ⟨o, s, [], .asked {} (.system (.loadProgram program)), booted, ?_, ?_⟩
  · exact (loadProgram_of_ok loaded).1
  · exact (ask_system s {} (.loadProgram program)).symm

/-- Writes to the delay timer (`LD V0, 5`, `LD DT, V0`), half a second, and one more step. -/
def busy : List Turn := [.step, .step, .host (.updateTimers (.float 0.5)), .step]

/-- One step for each second. -/
def slow : MachineConfig := { small with clock := .int 1 }

/-- A key, and half a second. -/
def lazy : List Turn := [.host (.moveKey (.int 3) true), .host (.updateTimers (.float 0.5))]

theorem timers_follow_time_busy : ∃ s s' : System,
    FreshlyLoaded {} s ∧ FreshlyLoaded slow s' ∧
    (∀ turn_ ∈ busy, turn_.GoesOn) ∧ (∀ turn_ ∈ lazy, turn_.GoesOn) ∧
    elapsedOf busy = elapsedOf lazy ∧
    s.answersOf busy = s'.answersOf lazy ∧
    (busy.foldl turn s).machine.timers.ticks = (lazy.foldl turn s').machine.timers.ticks ∧
    (busy.foldl turn s).machine.timers.carried = (lazy.foldl turn s').machine.timers.carried ∧
    s.KeepsDelay busy ∧ s'.KeepsDelay lazy := by
  obtain ⟨s, booted⟩ : ∃ s, (({} : MachineConfig).boot default).2 = .ok s := ⟨_, rfl⟩
  obtain ⟨s', booted'⟩ : ∃ s, (slow.boot default).2 = .ok s := ⟨_, rfl⟩
  have rate : ({} : MachineConfig).timerRate.toFloat? = slow.timerRate.toFloat? := rfl
  have loaded := freshlyLoaded_boot booted [0x60, 0x05, 0xF0, 0x15] (by decide)
  have loaded' := freshlyLoaded_boot booted' [0x00, 0xE0] (by decide)
  have goesOn : ∀ turn_ ∈ busy, turn_.GoesOn := by simp [busy, Turn.GoesOn]
  have goesOn' : ∀ turn_ ∈ lazy, turn_.GoesOn := by simp [lazy, Turn.GoesOn]
  exact ⟨_, _, loaded, loaded', goesOn, goesOn', rfl,
    timers_follow_time rate loaded loaded' goesOn goesOn' rfl⟩

end System
end ChipEight
