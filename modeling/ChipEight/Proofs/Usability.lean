import ChipEight.Proofs.Rates
import ChipEight.Proofs.Settings
import ChipEight.Proofs.Timekeeping
/-! # Which accepted rates are usable

Validation asks of a timer rate that it is not zero or below, and so do the timers when they are
built.  That is not enough to run at it.  A system keeps time (`System.KeepsTime`) if it takes every
time it is told of, whatever has happened to it before, and a configuration is usable if it makes
such a system.  Whatever settings are loaded, the machine that they describe is usable if its rate
is sound, and only then (`Config.loads_usable_iff`). -/

namespace ChipEight

namespace System

open Number

variable {s : System} {turn_ : Turn} {turns : List Turn} {I T : ℚ}

/-- Whatever happens to a system, as long as it is told of times of at most `T` seconds, the next
such time is taken. -/
def KeepsTime (s : System) (T : ℚ) : Prop :=
  ∀ turns (elapsed : Number), (∀ time ∈ elapsedOf turns, time.AtMost T) → elapsed.AtMost T →
    ∃ ticks, ((turns.foldl turn s).updateTimers elapsed).2 = .ok ticks

theorem steady_turn (steady : s.machine.timers.Steady I T)
    (brief : ∀ time ∈ turn_.elapsed?, time.AtMost T) :
    (s.turn turn_).machine.timers.Steady I T := by
  by_cases stepping : turn_ = .step
  · subst stepping
    rw [turn, step_timers]
    obtain ⟨interval, runs, carried⟩ := steady
    cases s.executed? .step with
    | none => exact ⟨interval, runs, carried⟩
    | some op => cases op <;> exact ⟨interval, runs, carried⟩
  -- any other turn resets the timers, lets time pass for them or leaves them alone
  rcases s.turn_timers stepping with ⟨-, reset⟩ | ⟨elapsed, rfl⟩ | ⟨-, same⟩
  · rw [reset]
    exact ⟨steady.interval, steady.runs, 0, value?_nil, Timers.rest_zero steady.runs⟩
  · obtain ⟨n, c, C, paid, value, rest⟩ := steady.account (brief elapsed rfl)
    obtain ⟨-, interval, carried, -⟩ := s.updateTimers_pays elapsed
    rw [paid] at carried
    refine ⟨?_, steady.runs, C, ?_, rest⟩
    · exact (congrArg Number.value? interval).trans steady.interval
    · exact (congrArg Number.value? carried).trans value
  · rw [same]
    exact steady

theorem steady_turns (steady : s.machine.timers.Steady I T)
    (brief : ∀ time ∈ elapsedOf turns, time.AtMost T) :
    (turns.foldl turn s).machine.timers.Steady I T := by
  induction turns generalizing s with
  | nil => exact steady
  | cons turn_ turns ih =>
    refine ih (steady_turn steady fun time mem => brief time ?_) fun time mem => brief time ?_
    · exact List.mem_filterMap.mpr ⟨turn_, List.mem_cons_self, mem⟩
    · obtain ⟨other, inside, timed⟩ := List.mem_filterMap.mp mem
      exact List.mem_filterMap.mpr ⟨other, List.mem_cons_of_mem _ inside, timed⟩

theorem keepsTime_of_steady (steady : s.machine.timers.Steady I T) : s.KeepsTime T := by
  intro turns elapsed brief lasts
  obtain ⟨n, c, C, paid, -⟩ := (steady_turns steady brief).account lasts
  refine ⟨n, ((turns.foldl turn s).updateTimers_pays elapsed).1.trans ?_⟩
  rw [paid]

/-- Where ticks stall, not even no time at all can pass twice. -/
theorem not_keepsTime_of_stalls (fresh : s.machine.timers.carried = 0.0)
    (stalls : Timers.Stalls s.machine.timers.interval) (nonneg : 0 ≤ T) : ¬ s.KeepsTime T := by
  intro keeps
  have none_ : (Number.int 0).AtMost T := ⟨0, congrArg some Int.cast_zero, le_rfl, nonneg⟩
  obtain ⟨answer, interval, carried, -⟩ := s.updateTimers_pays (.int 0)
  rcases stalls with first | second
  · obtain ⟨ticks, answered⟩ := keeps [] (.int 0) (by simp [elapsedOf]) none_
    rw [List.foldl_nil, answer, fresh] at answered
    rw [answered] at first
    cases first
  · obtain ⟨ticks, answered⟩ := keeps [.host (.updateTimers (.int 0))] (.int 0)
      (by simpa [elapsedOf, Turn.elapsed?] using none_) none_
    rw [List.foldl_cons, List.foldl_nil, turn, host,
      ((s.updateTimers (.int 0)).1.updateTimers_pays (.int 0)).1, interval, carried, fresh]
      at answered
    rw [answered] at second
    cases second

end System

namespace MachineConfig

variable {config : MachineConfig} {t : Timers} {T : ℚ}

/-- A machine can be built, and from then on takes every time of at most `T` seconds. -/
def Usable (config : MachineConfig) (T : ℚ) : Prop :=
  ∀ o, ∃ s, (config.boot o).2 = .ok s ∧ s.KeepsTime T

/-- A machine whose memory and display can be built. -/
structure Sized (config : MachineConfig) : Prop where
  memory : 0 ≤ config.memorySize
  width : 0 ≤ config.width
  height : 0 ≤ config.height

theorem Sized.boot (sized : config.Sized) (created : Timers.create config.timerRate = .ok t)
    (o : Observers) : ∃ s, (config.boot o).2 = .ok s ∧ s.machine.timers = t := by
  obtain ⟨memory, width, height⟩ := sized
  simp only [MachineConfig.boot, Memory.create, if_neg (not_lt.mpr memory), Display.create,
    if_neg (not_or.mpr ⟨not_lt.mpr width, not_lt.mpr height⟩), created]
  exact ⟨_, rfl, rfl⟩

/-- **A machine is usable exactly if its timer rate is sound.** -/
theorem usable_iff (sized : config.Sized) (above : config.timerRate.le (.int 0) = false)
    (moderate : Timers.Moderate config.timerRate T) :
    config.Usable T ↔ config.timerRate.Sound := by
  constructor
  · intro usable
    by_contra unsound
    obtain ⟨s, booted, keeps⟩ := usable default
    obtain ⟨fresh, stalls⟩ := Timers.stalls_of_unsound unsound (System.boot_equipped booted).timers
    exact System.not_keepsTime_of_stalls fresh stalls moderate.nonneg keeps
  · intro sound o
    obtain ⟨t, I, created, steady⟩ := Timers.steady_of_sound above sound moderate
    obtain ⟨s, booted, rfl⟩ := sized.boot created o
    exact ⟨s, booted, System.keepsTime_of_steady steady⟩

end MachineConfig

namespace Config

open Datum

variable {c : Config} {machine : Datum} {rate : Number}

/-! ## The rate that is loaded -/

/-- A setting that is brought into its section is what is read there afterwards. -/
theorem get_merge {key group setting : String} (names : path key = [group, setting])
    {given section_ : List (Datum × Datum)} {value : Datum} (proper : (Datum.dict given).Proper)
    (group_ : lookup (.text group) given = some (.dict section_))
    (there : lookup (.text setting) section_ = some value) (flat : ∀ entries, value ≠ .dict entries)
    (fallback : Datum) : (c.merge given).get key fallback = value := by
  have settings : (c.merge given).settings = mergeEntries true given c.settings := rfl
  rw [get_pair names, settings, lookup_mergeEntries proper.1, group_]
  dsimp only
  rcases mergeValue_cases true (.text group) (.dict section_) (lookup (.text group) c.settings) with
    same | ⟨_, theirs, ⟨⟩, -, -, merged⟩
  · rw [same]
    dsimp only
    rw [there]
    rfl
  · have distinct : Distinct section_ := (proper.2.lookup group_).1
    rw [merged]
    dsimp only
    rw [lookup_mergeEntries distinct, there]
    dsimp only
    rcases mergeValue_cases (true && !(Datum.text group).truthy) (.text setting) value
        (lookup (.text setting) theirs) with same | ⟨entries, _, nested, -⟩
    · rw [same]
      rfl
    · exact absurd nested (flat entries)

/-- The configuration that a machine is built from. -/
theorem Describes.sized (described : Describes machine) :
    (({} : MachineConfig).override machine).Sized := by
  have size : machine.field? "memory_size" = some (.int defaultMemorySize) :=
    described.fixed _ (by simp)
  have resolution : machine.field? "resolution" =
      some (.list [.int defaultWidth, .int defaultHeight]) := described.fixed _ (by simp)
  constructor <;> simp only [MachineConfig.override, size, resolution]
  · exact Int.natCast_nonneg defaultMemorySize
  · exact Int.natCast_nonneg defaultWidth
  · exact Int.natCast_nonneg defaultHeight

/-- The machine that is described can be built but for its timers, which run at the rate that is
configured. -/
theorem Valid.built (valid : Valid c) : ∃ machine rate, c.machine = .ok machine ∧
    c.get "timers.rate_hz" (.int defaultTimerRate) = .number rate ∧ rate.le (.int 0) = false ∧
    (({} : MachineConfig).override machine).timerRate = rate ∧
    (({} : MachineConfig).override machine).Sized := by
  obtain ⟨machine, made, described⟩ := valid.describes
  obtain ⟨keymap, -, made'⟩ := valid.machine_eq
  obtain ⟨rate, above, rated⟩ := described.rate
  refine ⟨machine, rate, made, ?_, above, ?_, described.sized⟩
  · rw [made] at made'
    rw [Except.ok.inj made'] at rated
    exact Option.some.inj rated
  · simp only [MachineConfig.override, rated]

/-- **Which accepted timer rates are usable.**  Whatever settings are loaded, one after the other:
the machine that they describe can be built and takes all times that are not too long, whatever
else happens to it, exactly if the rate and the length of its ticks are finite floats. -/
theorem loads_usable_iff {users : List Datum} (proper : ∀ user ∈ users, user.Proper) :
    ∃ machine rate, (default.loads users).machine = .ok machine ∧
      (default.loads users).get "timers.rate_hz" (.int defaultTimerRate) = .number rate ∧
      ∀ T, Timers.Moderate rate T →
        ((({} : MachineConfig).override machine).Usable T ↔ rate.Sound) := by
  obtain ⟨machine, rate, made, configured, above, same, sized⟩ := (valid_default.loads proper).built
  refine ⟨machine, rate, made, configured, fun T moderate => ?_⟩
  rw [← same] at above moderate ⊢
  exact MachineConfig.usable_iff sized above moderate

/-- Settings that speak of the timer rate alone. -/
def withRate (rate : Number) : Datum := .record [("timers", .record [("rate_hz", .number rate)])]

theorem proper_withRate (rate : Number) : (withRate rate).Proper := by
  simp [withRate, record, Proper, ProperEntries, Distinct]

theorem validate_withRate (above : rate.le (.int 0) = false) :
    validate (withRate rate) = .ok [] := by
  have accepted : isRate (.number rate) = true := by
    rw [isRate, above]
    rfl
  have asked (demand : String) :
      Rule.check ⟨"timers", "rate_hz", isRate, demand⟩ (withRate rate) = .ok [] := by
    change (if isRate (.number rate) then Except.ok [] else Except.ok [_]) = _
    rw [accepted]
    rfl
  have before : rulesBeforeKeymap.mapM (·.check (withRate rate)) = .ok [[], [], [], []] := by
    simp only [rulesBeforeKeymap, List.mapM_cons, List.mapM_nil, asked]
    rfl
  rw [validate, before]
  rfl

theorem lookup_singleton (name : String) (value : Datum) :
    lookup (.text name) [(.text name, value)] = some value := by
  rw [lookup, if_pos (text_sameKey.mpr rfl)]

/-- Every rate that is not zero or below is accepted, and is what is configured then. -/
theorem loadDatum_withRate (c : Config) (above : rate.le (.int 0) = false) :
    (c.loadDatum (withRate rate)).2.2 = .ok true ∧
    (c.loadDatum (withRate rate)).1.get "timers.rate_hz" (.int defaultTimerRate) =
      .number rate := by
  have names : path "timers.rate_hz" = ["timers", "rate_hz"] := rfl
  rw [loadDatum, accept, validate_withRate above]
  refine ⟨rfl, ?_⟩
  change (c.merge [(.text "timers", .record [("rate_hz", .number rate)])]).get _ _ = _
  exact get_merge names (proper_withRate rate) (lookup_singleton "timers" _)
    (lookup_singleton "rate_hz" _) (fun _ => Datum.noConfusion) _

theorem loads_usable_withRate : (∀ user ∈ [withRate (.int 30)], user.Proper) ∧
    ∃ machine, (default.loads [withRate (.int 30)]).machine = .ok machine ∧
      (({} : MachineConfig).override machine).Usable 3600 := by
  have proper : ∀ user ∈ [withRate (.int 30)], user.Proper :=
    List.forall_mem_singleton.mpr (proper_withRate _)
  obtain ⟨machine, rate, made, configured, usable⟩ := loads_usable_iff proper
  obtain rfl : .int 30 = rate :=
    Datum.number.inj ((loadDatum_withRate default rfl).2.symm.trans configured)
  have moderate : Timers.Moderate (.int 30) 3600 := by
    refine ⟨by norm_num, ?_, fun A amount => ?_⟩
    · calc (3600 : ℚ) ≤ 2 ^ 12 := by norm_num
        _ ≤ 2 ^ 800 := pow_le_pow_right₀ one_le_two (by decide)
    · obtain rfl : ((30 : ℤ) : ℚ) = A := Option.some.inj amount
      calc (3600 : ℚ) * (30 : ℤ) ≤ 2 ^ 17 := by norm_num
        _ ≤ 2 ^ 900 := pow_le_pow_right₀ one_le_two (by decide)
  have sound : (Number.int 30).Sound := by
    have amount : (Number.int 30).amount? = some 30 := congrArg some (Int.cast_ofNat 30)
    refine Timers.sound_of_amount amount ?_ ?_
    · calc (2 : ℚ) ^ (-1000 : ℤ) ≤ 2 ^ (0 : ℤ) := Number.two_zpow_le (by decide)
        _ ≤ 30 := by norm_num
    · calc (30 : ℚ) ≤ 2 ^ (5 : ℤ) := by norm_num
        _ ≤ 2 ^ (1000 : ℤ) := Number.two_zpow_le (by decide)
  exact ⟨proper, machine, made, (usable 3600 moderate).mpr sound⟩

/-- An infinite rate is accepted, and a machine is built; but then no time can pass. -/
theorem infinite_rate_fails :
    let loaded := default.loadDatum (withRate (.float (Number.infinity false)))
    loaded.2.2 = .ok true ∧ ∃ machine, loaded.1.machine = .ok machine ∧
      ∀ o, ∃ s, ((({} : MachineConfig).override machine).boot o).2 = .ok s ∧
        (s.updateTimers (.int 0)).2 = .error .divisionByZero := by
  intro loaded
  have above : (Number.float (Number.infinity false)).le (.int 0) = false := by decide +kernel
  obtain ⟨accepted, read⟩ := loadDatum_withRate default above
  have proper : ∀ user ∈ [withRate (.float (Number.infinity false))], user.Proper :=
    List.forall_mem_singleton.mpr (proper_withRate _)
  have valid : Valid loaded.1 := valid_default.loads proper
  obtain ⟨machine, rate, made, configured, -, same, sized⟩ := valid.built
  obtain rfl := Datum.number.inj (read.symm.trans configured)
  have created : Timers.create (({} : MachineConfig).override machine).timerRate =
      .ok ⟨.float (Number.infinity false), 1.0 / Number.infinity false, 0, 0, 0.0, false, 0⟩ := by
    rw [same, Timers.create, above]
    rfl
  refine ⟨accepted, machine, made, fun o => ?_⟩
  obtain ⟨s, booted, timers⟩ := sized.boot created o
  refine ⟨s, booted, ?_⟩
  rw [(s.updateTimers_pays (.int 0)).1, timers]
  rfl

end Config
end ChipEight
