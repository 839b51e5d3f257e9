import ChipEight.Proofs.Lockstep
import ChipEight.Proofs.ProperReading
import ChipEight.Proofs.SavedSettings
/-! # Settings that tune a machine

Settings of the processor, the timers and the keys leave the rest of the configuration as it is by
default (`Config.Tuned`), whether they come from a file or, for the clock, from a command line.  If
clock and timers run at a sensible pace (`Config.Paced`), then the machine that is configured can be
built, has its time for each step, and takes it (`Config.Tuned.machine`,
`MachineConfig.Paced.boots`). -/

namespace ChipEight

open Datum Number

/-- A machine of the standard layout whose clock and timers run at a sensible pace. -/
structure MachineConfig.Paced (config : MachineConfig) : Prop extends Standard config where
  clock : ∃ hz : Int, config.clock = .int hz ∧ 1 ≤ hz ∧ hz ≤ 1000000
  above : config.timerRate.le (.int 0) = false
  rate : ∃ A, config.timerRate.amount? = some A ∧ 1 ≤ A ∧ A ≤ 1000000

namespace Config

variable {c : Config} {given : List (Datum × Datum)} {hz : Int}

/-! ## What is tuned -/

/-- The sections that tune a machine. -/
def tunable : List String := ["cpu", "timers", "keymap"]

/-- Settings that tune a machine, and nothing else. -/
def Tunes (given : List (Datum × Datum)) : Prop :=
  ∀ entry ∈ given, ∃ name ∈ tunable, entry.1 = .text name

/-- Valid settings that are the default ones but for those that tune the machine. -/
structure Tuned (c : Config) : Prop where
  valid : Valid c
  apart : ∀ name ∉ tunable, lookup (.text name) c.settings = lookup (.text name) default.settings

theorem tuned_default : Tuned default := ⟨valid_default, fun _ _ => rfl⟩

theorem Tuned.merge (tuned : Tuned c) (accepted : validate (.dict given) = .ok [])
    (proper : (Datum.dict given).Proper) (tunes : Tunes given) : Tuned (c.merge given) := by
  refine ⟨tuned.valid.merge (accepted_of_validate accepted) proper, fun name other => ?_⟩
  have absent : lookup (.text name) given = none := lookup_eq_none fun entry mem same => by
    obtain ⟨tuning, mem, named⟩ := tunes entry mem
    rw [named, text.injEq] at same
    exact other (same ▸ mem)
  rw [Config.merge, lookup_mergeEntries proper.1, absent]
  exact tuned.apart name other

/-- What is read in another section is what is there by default. -/
theorem Tuned.get (tuned : Tuned c) {key : String} (group setting : String)
    {section_ : List (Datum × Datum)} {value : Datum} (names : path key = [group, setting])
    (other : group ∉ tunable)
    (there : lookup (.text group) default.settings = some (.dict section_))
    (set_ : lookup (.text setting) section_ = some value) (fallback : Datum) :
    c.get key fallback = value := by
  rw [get_pair names, tuned.apart group other, there]
  dsimp only
  rw [set_]
  rfl

/-! ## The clock of a command line -/

def withClock (hz : Int) : List (Datum × Datum) := [(.text "cpu", .record [("clock_hz", .int hz)])]

/-- The settings with a clock of its own, if there is one. -/
def clocked (c : Config) : Option Int → Config
  | none => c
  | some hz => c.set "cpu.clock_hz" (.int hz)

/-- Setting the clock is merging it in. -/
theorem set_clock (c : Config) (hz : Int) :
    c.set "cpu.clock_hz" (.int hz) = c.merge (withClock hz) := by
  have names : path "cpu.clock_hz" = ["cpu", "clock_hz"] := rfl
  have plain : namesKeymap true (.text "cpu") = false := by decide
  have put (old : List (Datum × Datum)) : mergeEntries (true && !(Datum.text "cpu").truthy)
      [(.text "clock_hz", .int hz)] old = Datum.insert (.text "clock_hz") (.int hz) old := by
    rw [mergeEntries, mergeEntries, mergeValue_of_plain fun _ => Datum.noConfusion]
  rw [Config.set, names, setAt, setAt, Config.merge, withClock, mergeEntries, mergeEntries]
  congr 2
  change Datum.dict _ = mergeValue true _ (.dict [(.text "clock_hz", .int hz)]) _
  cases there : lookup (.text "cpu") c.settings with
  | none => rw [mergeValue_none]; rfl
  | some old =>
    cases old with
    | dict entries => rw [mergeValue_mappings plain, put]
    | _ => rw [mergeValue_plain fun _ => Datum.noConfusion]; rfl

theorem validate_withClock (positive : 0 < hz) : validate (.dict (withClock hz)) = .ok [] := by
  have accepted : isPositiveInt (.number (.int hz)) = true := decide_eq_true positive
  have asked (demand : String) :
      Rule.check ⟨"cpu", "clock_hz", isPositiveInt, demand⟩ (.dict (withClock hz)) = .ok [] := by
    change (if isPositiveInt (.number (.int hz)) then Except.ok [] else Except.ok [_]) = _
    rw [accepted]
    rfl
  have before : rulesBeforeKeymap.mapM (·.check (.dict (withClock hz))) =
      .ok [[], [], [], []] := by
    simp only [rulesBeforeKeymap, List.mapM_cons, List.mapM_nil, asked]
    rfl
  rw [validate, before]
  rfl

theorem proper_withClock (hz : Int) : (Datum.dict (withClock hz)).Proper := by
  simp [withClock, record, Datum.int, Proper, ProperEntries, Distinct]

theorem get_withClock (c : Config) (hz : Int) (fallback : Datum) :
    (c.merge (withClock hz)).get "cpu.clock_hz" fallback = .int hz :=
  get_merge rfl (proper_withClock hz) (lookup_singleton "cpu" _) (lookup_singleton "clock_hz" _)
    (fun _ => Datum.noConfusion) fallback

/-- Clock and timers run at a sensible pace. -/
structure Paced (c : Config) : Prop where
  clock : ∃ hz : Int, c.get "cpu.clock_hz" (.int defaultClock) = .int hz ∧ 1 ≤ hz ∧ hz ≤ 1000000
  rate : ∃ rate A, c.get "timers.rate_hz" (.int defaultTimerRate) = .number rate ∧
    rate.amount? = some A ∧ 1 ≤ A ∧ A ≤ 1000000

/-- A clock of a sensible pace is above zero. -/
theorem Paced.positive (paced : (c.clocked (some hz)).Paced) : 0 < hz := by
  obtain ⟨hz', read, positive, -⟩ := paced.clock
  rw [clocked, set_clock, get_withClock] at read
  cases read
  omega

theorem Tuned.clocked (tuned : Tuned c) {clock : Option Int} (paced : (c.clocked clock).Paced) :
    Tuned (c.clocked clock) := by
  cases clock with
  | none => exact tuned
  | some hz =>
    rw [Config.clocked, set_clock]
    refine tuned.merge (validate_withClock paced.positive) (proper_withClock hz) fun entry mem => ?_
    rw [List.mem_singleton.mp mem]
    exact ⟨"cpu", .head _, rfl⟩

/-- **The machine that is configured** has the standard layout, and the pace that is configured,
whatever it draws from without a seed. -/
theorem Tuned.machine (tuned : Tuned c) (paced : c.Paced) (unseeded : ByteSource) :
    ∃ machine, c.machine = .ok machine ∧
      (({ unseeded } : MachineConfig).override machine).Paced := by
  obtain ⟨keymap, -, made⟩ := tuned.valid.machine_eq
  obtain ⟨hz, clock, paced_⟩ := paced.clock
  obtain ⟨rate, A, rated, amount⟩ := paced.rate
  have accepted := tuned.valid.get ⟨"timers", "rate_hz", isRate, _⟩ (.tail _ (.tail _ (.head _)))
    "timers.rate_hz" rfl (.int defaultTimerRate) rfl
  obtain ⟨rate', above, same⟩ := of_isRate accepted
  rw [rated] at same
  cases same
  rw [clock, rated] at made
  exact ⟨_, made, ⟨⟨rfl, rfl, rfl, rfl, rfl⟩, ⟨hz, rfl, paced_⟩, above, ⟨A, amount⟩⟩⟩

/-! ## Files of settings -/

/-- The settings of a command line that names such a file: the default ones where none is named,
else what is made of them by a file that is accepted and tunes the machine alone. -/
inductive Given (yaml : YamlLibrary) (fs : Files) : Option String → Config → Prop
  | unnamed {path : Option String} : path.filter (!·.isEmpty) = none → Given yaml fs path default
  | file {path text : String} {format : Format} {given : List (Datum × Datum)} :
      path.isEmpty = false →
      Format.ofExtension? (Text.lower (Files.extension path)) = some format →
      fs.readText path = .ok text → format.parse yaml path text = .ok (.dict given) →
      Tunes given → validate (.dict given) = .ok [] →
      Given yaml fs (some path) (default.merge given)

variable {yaml : YamlLibrary} {fs : Files}

theorem Given.tuned {path : Option String} (lawful : yaml.Lawful) (given : Given yaml fs path c) :
    Tuned c := by
  cases given with
  | unnamed _ => exact tuned_default
  | @file path text format _ _ _ _ parsed tunes accepted =>
    exact tuned_default.merge accepted (format.reads_proper lawful path text parsed) tunes

/-- Such a file is loaded. -/
theorem Given.load {path : String} (given : Given yaml fs (some path) c)
    (named : path.isEmpty = false) :
    default.load fs path yaml =
      (c, [⟨.info, .config, s!"Configuration loaded from {path}"⟩], .ok true) := by
  cases given with
  | unnamed none_ => simp [Option.filter, named] at none_
  | file _ format there parsed _ accepted =>
    refine load_parsed format there parsed ?_
    rw [accept, accepted]
    rfl

end Config

namespace MachineConfig

variable {config : MachineConfig}

/-- The time of a step is a float that all steady timers take. -/
theorem Paced.tick (paced : config.Paced) : ∃ tick : Number, tick.AtMost 2 ∧
    ∀ s : System, s.clock = config.clock → s.stepTime = .ok tick := by
  obtain ⟨hz, clock, low, high⟩ := paced.clock
  have one : (1 : ℚ) ≤ hz := by exact_mod_cast low
  have inside : |(hz : ℚ)| < reach := by
    have small : ((hz.toNat : ℕ) : ℚ) < reach := natCast_lt_reach (by omega)
    have same : ((hz.toNat : ℕ) : ℤ) = hz := Int.toNat_of_nonneg (by omega)
    rwa [abs_of_nonneg (by linarith), ← same, Int.cast_natCast]
  obtain ⟨f, F, stored, value, rounds⟩ := floatOfInt?_rounds hz inside
  have half := rounds.half_le one
  have positive : 0 < F := by linarith
  have short : 1 / F ≤ 2 := by
    rw [div_le_iff₀ positive]
    linarith
  have nonneg : 0 ≤ 1 / F := (one_div_pos.mpr positive).le
  have large : ((2 : ℕ) : ℚ) < reach := natCast_lt_reach (by norm_num)
  obtain ⟨V, value', rounds'⟩ := (div_renders value?_one value positive.ne').inside (by
    rw [abs_of_nonneg nonneg]
    exact lt_of_le_of_lt short large)
  refine ⟨.float (1.0 / f), ⟨V, value', rounds'.nonneg nonneg, ?_⟩, fun s same => ?_⟩
  · have unit := two_zpow_pos (1 - 53)
    rw [← zpow_one (2 : ℚ)] at short ⊢
    exact rounds'.le_two_zpow nonneg (by norm_num) (by linarith)
  · have divisible : ¬ (f == 0.0) = true := fun zero => positive.ne' ((beq_zero value).mp zero)
    rw [System.stepTime, same, clock, toFloat?, stored]
    exact if_neg divisible

/-- A system starts with the clock that is configured and the trace that is given. -/
theorem boot_start {o : Observers} {s : System} (booted : (config.boot o).2 = .ok s) :
    s.clock = config.clock ∧ s.observers.trace = o.trace := by
  obtain ⟨_, _, _, _, -, -, -, trace, rfl⟩ := System.boot_cases booted
  exact ⟨rfl, trace⟩

/-- The system that is booted, whoever observes it. -/
theorem Paced.boots (paced : config.Paced) (o : Observers) : ∃ s, (config.boot o).2 = .ok s ∧
    System.Sturdy config 2 s ∧ s.clock = config.clock ∧ s.observers.trace = o.trace := by
  obtain ⟨A, amount, low, high⟩ := paced.rate
  have small : (2 : ℚ) * 1000000 ≤ 2 ^ 21 := by norm_num
  have moderate : Timers.Moderate config.timerRate 2 := by
    refine ⟨zero_le_two, ?_, fun A' amount' => ?_⟩
    · exact le_self_pow₀ one_le_two (by decide)
    · rw [amount] at amount'
      obtain rfl := Option.some.inj amount'
      calc 2 * A ≤ 2 * 1000000 := by linarith
        _ ≤ 2 ^ 21 := small
        _ ≤ 2 ^ 900 := pow_le_pow_right₀ one_le_two (by decide)
  have sound : config.timerRate.Sound := by
    refine Timers.sound_of_amount amount ?_ ?_
    · calc (2 : ℚ) ^ (-1000 : ℤ) ≤ 2 ^ (0 : ℤ) := two_zpow_le (by decide)
        _ ≤ A := by simpa using low
    · calc A ≤ 2 ^ (21 : ℤ) := by norm_num; linarith
        _ ≤ 2 ^ (1000 : ℤ) := two_zpow_le (by decide)
  obtain ⟨t, I, created, steady⟩ := Timers.steady_of_sound paced.above sound moderate
  have sized : config.Sized := by
    constructor <;> simp only [paced.memorySize, paced.width, paced.height] <;> decide
  obtain ⟨s, booted, rfl⟩ := sized.boot created o
  have display := (System.boot_equipped booted).display
  rw [paced.width, paced.height] at display
  obtain ⟨width, height⟩ :
      s.machine.display.grid.width = 64 ∧ s.machine.display.grid.height = 32 := by
    rw [Display.create, if_neg (by decide)] at display
    rw [← Except.ok.inj display]
    exact ⟨rfl, rfl⟩
  refine ⟨s, booted, ⟨.boot booted, ⟨fun part => ?_, ?_, ?_⟩, I, steady⟩, boot_start booted⟩
  · rw [(System.boot_fresh booted).wiring]
    cases part <;> rfl
  · rw [width]
    decide
  · rw [height]
    decide

end MachineConfig
end ChipEight
