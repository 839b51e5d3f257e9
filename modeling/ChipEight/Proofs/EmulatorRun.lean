import ChipEight.Proofs.Accounting
import ChipEight.Proofs.Sessions
import ChipEight.Proofs.TraceFile
import ChipEight.Proofs.TunedSettings
/-! # The command line and the library

The emulator on the command line steps its machine and lets the time pass by itself, logs what
happens and may record it; the library loads a program, presses keys and runs cycles
(`System.ready`, `System.runCycles`).  Stage by stage the emulator has a twin of the library's
system, and shows what this system would (`yields_prepare`, `yields_emulate`).  So whatever the
library answers, the emulator tells (`emulator_agrees`): it completes the cycles, shows the machine
and saves the trace (`Completes`), or it is stopped by the library's fault (`Stops`). -/

namespace ChipEight

namespace CommandLine

open Run Config

/-! ## Setting up -/

variable {host : Host} {yaml : YamlLibrary} {o : Options} {v : Shown} {c : Config}

theorem yields_loadSettings (given : Given yaml v.files o.config c) :
    Yields (loadSettings yaml o) v (.ok c) v := by
  rw [loadSettings]
  generalize o.config = path at given
  cases given with
  | unnamed none_ =>
    rw [none_]
    exact yields_pure _ v
  | @file path _ _ _ named known there parsed tunes accepted =>
    have filtered : (some path).filter (!·.isEmpty) = some path := by
      rw [Option.filter_some, named]
      rfl
    have loaded := (Given.file named known there parsed tunes accepted).load named
    rw [filtered]
    refine (yields_files v).bind ?_
    simp only [loaded]
    refine (yields_log (.inr ?_)).bind ((yields_orFail true v).bind (yields_pure _ v))
    simp [Level.rank]

theorem yields_setClock (positive : ∀ hz, o.clock = some hz → 0 < hz) :
    Yields (setClock o c) v (.ok (c.clocked o.clock)) v := by
  rw [setClock]
  cases clock : o.clock with
  | none => exact yields_pure _ v
  | some hz =>
    have above : ¬ hz ≤ 0 := not_le.mpr (positive hz clock)
    simp only [if_neg above]
    exact yields_pure _ v

theorem yields_configure (whole : 0 ≤ o.cycles) (given : Given yaml v.files o.config c)
    (positive : ∀ hz, o.clock = some hz → 0 < hz) :
    Yields (configure yaml o) v (.ok (c.clocked o.clock)) v := by
  simp only [configure, if_neg (not_lt.mpr whole)]
  exact (yields_loadSettings given).bind (yields_setClock positive)

/-- Where the options want the trace to be saved. -/
def Options.traced (o : Options) : Option String := o.trace.filter (!·.isEmpty)

/-- The options ask for no pictures. -/
structure Options.Plain (o : Options) : Prop where
  screenshot : o.screenshot.filter (!·.isEmpty) = none
  plot : o.plot.filter (!·.isEmpty) = none

/-- The trace that is opened for these options. -/
def Options.recorder (o : Options) : Option Trace :=
  o.traced.bind fun _ => (Trace.create (some Trace.defaultLimit) none).toOption

theorem recorder_of_traced (traced : o.traced.isSome = true) :
    ∃ trace, o.recorder = some trace ∧ trace.Holds 0 := by
  obtain ⟨path, wanted⟩ := Option.isSome_iff_exists.mp traced
  obtain ⟨trace, created⟩ : ∃ trace, Trace.create (some Trace.defaultLimit) none = .ok trace :=
    ⟨_, rfl⟩
  refine ⟨trace, ?_, Trace.holds_create created⟩
  rw [Options.recorder, wanted, created]
  rfl

theorem yields_openLog (tuned : Tuned c) : Yields (openLog c) v (.ok none) v := by
  have file : c.get "logging.file" .null = .null :=
    tuned.get "logging" "file" rfl (by decide) rfl rfl _
  rw [openLog, file]
  exact yields_pure _ v

theorem getD_map_filter (path : Option String) :
    (path.map (!·.isEmpty)).getD false = (path.filter (!·.isEmpty)).isSome := by
  cases path with
  | none => rfl
  | some path =>
    rw [Option.filter_some]
    cases empty : path.isEmpty <;> simp [empty]

theorem yields_openTrace (tuned : Tuned c) (plain : o.Plain) (logging : v.logging = true) :
    Yields (openTrace o c) v (.ok o.recorder) v := by
  have off : c.get "trace.enabled" .null = .bool false :=
    tuned.get "trace" "enabled" rfl (by decide) rfl rfl _
  have limit : c.get "trace.max_history" .null = .int Trace.defaultLimit :=
    tuned.get "trace" "max_history" rfl (by decide) rfl rfl _
  simp only [openTrace, off, limit, getD_map_filter, plain.plot]
  rw [Options.recorder, Options.traced]
  cases o.trace.filter (!·.isEmpty) with
  | none => exact yields_pure _ v
  | some path =>
    refine (yields_pure _ v).bind ?_
    refine (yields_orFail _ v).bind ((yields_log (.inl logging)).bind ?_)
    exact yields_pure _ v

/-- A system whose journal has been told. -/
def told (s : System) : System := s.mapObservers fun o => { o with journal := o.journal.blank }

theorem yields_drain (s : System) (logging : v.logging = true) :
    Yields (drain s) v (.ok (told s)) v :=
  (yields_log (.inl logging)).bind (yields_pure _ v)

theorem yields_drained {α : Type} (result : System × Except Failure α)
    (logging : v.logging = true) :
    Yields (drained result) v (.ok (told result.1, result.2)) v :=
  (yields_drain result.1 logging).bind (yields_pure _ v)

theorem yields_setUp (console : Level) (logFile : Option String) (v : Shown) :
    Yields (modify fun s => { s with console := some console, logFile }) v (.ok ())
      { v with logging := true } := by
  rintro s rfl
  exact ⟨{ s with console := some console, logFile }, rfl, rfl⟩

/-- What a machine is built from on a host, where nothing is configured. -/
def Host.machine (host : Host) : MachineConfig := { unseeded := host.random }

/-- The machine that is assembled is the one that is configured, with the trace that is wanted. -/
theorem yields_assemble {machine : Datum} (tuned : Tuned c) (plain : o.Plain)
    (made : c.machine = .ok machine) (paced : (host.machine.override machine).Paced) :
    ∃ observers s, ((host.machine.override machine).boot observers).2 = .ok s ∧
      observers.trace = o.recorder ∧
      Yields (assemble host.random o c) v (.ok (told s)) { v with logging := true } := by
  let threshold := consoleLevel o c
  let enlisted := (Bus.create Bus.defaultLimit).enlistReporter
    (({ threshold } : Journal).addAll Bus.createNotes) [.toneStart, .toneEnd, .keyWait] .debug
  let observers : Observers := {
    bus := enlisted.1, journal := enlisted.2, trace := o.recorder
    errors := some (ErrorLog.create ErrorLog.defaultLimit true) }
  obtain ⟨s, booted, -⟩ := paced.boots observers
  refine ⟨observers, s, booted, rfl, ?_⟩
  unfold assemble
  refine (yields_openLog tuned).bind ?_
  refine (yields_setUp _ _ v).bind ?_
  refine (yields_log (.inl rfl)).bind ?_
  refine (yields_openTrace tuned plain rfl).bind ?_
  simp only [made]
  refine (yields_orFail machine _).bind ?_
  split
  · rename_i failed
    rw [show (host.machine.override machine).boot observers = _ from failed] at booted
    cases booted
  · rename_i made
    rw [show (host.machine.override machine).boot observers = _ from made] at booted
    cases booted
    exact yields_drain s rfl

/-! ## Running -/

/-- What is printed before a run. -/
def header (o : Options) (s : System) : List String := [
  ruler, "  CHIP-8 Emulator", s!"  ROM: {o.rom}", s!"  Cycles: {o.cycles} at {s.clock.text} Hz",
  ruler]

theorem yields_printHeader (o : Options) (s : System) (v : Shown) :
    Yields (printHeader o s) v (.ok ()) { v with output := v.output ++ header o s } := by
  unfold printHeader
  refine Yields.to ((yields_print _ v).bind <| (yields_print _ _).bind <|
    (yields_print _ _).bind <| (yields_print _ _).bind (yields_print _ _)) ?_
  simp [header]

/-- A program that is loaded from a file as it is loaded from memory. -/
theorem yields_load {s t : System} {traced : Prop} {content : ByteArray}
    (twins : s.Twins traced t) (there : v.files.read o.rom = .ok content)
    (granted : (s.loadProgram content.toList).2 = .ok ()) (logging : v.logging = true) :
    ∃ t', Yields (load o t) v (.ok t') v ∧ (s.loadProgram content.toList).1.Twins traced t' := by
  obtain ⟨loaded, twins'⟩ := twins.load there granted
  refine ⟨told (t.loadRom v.files o.rom).1, ?_, twins'.mapObservers rfl⟩
  refine (yields_files v).bind ((yields_drained _ logging).bind ?_)
  simp only [loaded]
  exact yields_pure _ v

/-- Keys that are held down one after the other. -/
theorem twins_holdKeys {s t : System} {traced : Prop} (keys : List Key) (twins : s.Twins traced t) :
    (holdKeys keys s).Twins traced (holdKeys keys t) := by
  induction keys generalizing s t with
  | nil => exact twins
  | cons key keys ih => exact ih (twins.moveKey _ true)

section

variable {bar : ProgressBar} {tick : Number} {s t S : System} {traced : Prop}
  (passes : bar o.cycles = .ok ()) (twins : s.Twins traced t) (lasts : s.stepTime = .ok tick)
  (logging : v.logging = true)
include passes twins lasts logging

/-- The cycles are run to the end as the library runs them. -/
theorem yields_runCycles {reports : Array StepReport}
    (ran : s.runCycles o.cycles = (S, .ok reports)) :
    ∃ T, Yields (runCycles bar o tick t) v (.ok T) v ∧ S.Twins traced T := by
  obtain ⟨answer, after⟩ := twins.advance lasts o.cycles.toNat #[]
  rw [System.runCycles] at ran
  rw [ran] at answer after
  refine ⟨told (advance tick o.cycles.toNat t).1, ?_, after.mapObservers rfl⟩
  unfold runCycles
  rw [passes]
  refine (yields_orFail () v).bind ((yields_drained _ logging).bind ?_)
  rw [answer]
  exact yields_pure _ v

/-- A fault is told with the cycles that the library has counted. -/
theorem yields_runCycles_fault {f : Fault} (ran : s.runCycles o.cycles = (S, .error (.fault f))) :
    Yields (runCycles bar o tick t) v (.error (.exit 1)) { v with
      errors := v.errors ++ [s!"Fatal error after {S.cycleCount} cycles: {f.message}"] } := by
  obtain ⟨answer, after⟩ := twins.advance lasts o.cycles.toNat #[]
  rw [System.runCycles] at ran
  rw [ran] at answer after
  unfold runCycles
  rw [passes]
  refine (yields_orFail () v).bind ((yields_drained _ logging).bind ?_)
  rw [answer, ← after.cycleCount]
  exact (yields_printError _ v).bind (yields_exit 1 _)

end

/-! ## Results -/

/-- What is printed after a run. -/
def summary (o : Options) (tick : Number) (s : System) : List String := [
    s!"Cycles executed: {s.cycleCount}",
    s!"Simulated time: {Number.fixedText 3 (simulatedTime s.cycleCount tick)}s",
    s!"Unknown opcodes: {s.machine.unknownCount}"] ++
  if o.ascii then [s.machine.display.toAscii "#" "."] else []

theorem yields_printSummary {s t : System} {traced : Prop} (twins : s.Twins traced t) (o : Options)
    (tick : Number) (v : Shown) : Yields (printSummary o tick t) v (.ok ())
      { v with output := v.output ++ summary o tick s } := by
  unfold printSummary
  rw [twins.cycleCount, twins.machine]
  refine (yields_tellTime _ v).bind ?_
  cases ascii : o.ascii with
  | false =>
    refine Yields.to ((yields_print _ v).bind <| (yields_print _ _).bind <|
      (yields_print _ _).bind (yields_pure _ _)) ?_
    simp [summary, ascii]
  | true =>
    refine Yields.to ((yields_print _ v).bind <| (yields_print _ _).bind <|
      (yields_print _ _).bind (yields_print _ _)) ?_
    simp [summary, ascii]

theorem yields_writePictures (plain : o.Plain) (c : Config) (s : System) (v : Shown) :
    Yields (writePictures o c s) v (.ok ()) v := by
  unfold writePictures
  rw [plain.screenshot, plain.plot]
  exact yields_pure _ v

/-- The format in which a trace is written that is wanted under a path. -/
def traceFormat (path : String) : String :=
  let extension := ((Text.lower (Files.extension path)).dropWhile (· == '.')).toString
  if Trace.formats.contains extension then extension else "json"

theorem traceFormat_known (path : String) : Trace.formats.contains (traceFormat path) = true := by
  rw [traceFormat]
  split
  · rename_i known
    exact known
  · decide

/-- What becomes of a run whose trace was written with such a result. -/
def afterSaving : Except Failure Unit → Except Ending Unit
  | .ok () => .ok ()
  | .error (.file _) => .error (.exit 1)
  | .error e => .error (.failure e)

theorem yields_writeTrace_none (untraced : o.traced = none) (c : Config) (s : System) (v : Shown) :
    Yields (writeTrace o c s) v (.ok ()) v := by
  unfold writeTrace
  rw [show o.trace.filter (!·.isEmpty) = none from untraced]
  exact yields_pure _ v

/-- The trace is written, or the run ends. -/
theorem yields_writeTrace {path : String} {s : System} {trace : Trace} {files : Files}
    {result : Except Failure Unit} (tuned : Tuned c) (traced : o.traced = some path)
    (recorded : s.observers.trace = some trace)
    (written : trace.writeTo v.files path (traceFormat path) Trace.noTime = (files, result))
    (logging : v.logging = true) :
    Yields (writeTrace o c s) v (afterSaving result) { v with files } := by
  have format : c.get "trace.format" .null = .text "json" :=
    tuned.get "trace" "format" rfl (by decide) rfl rfl _
  unfold writeTrace
  rw [show o.trace.filter (!·.isEmpty) = some path from traced]
  rw [recorded]
  dsimp only
  rw [format]
  refine (yields_files v).bind ?_
  have known : (if Trace.formats.contains
      ((Text.lower (Files.extension path)).dropWhile (· == '.')).toString = true then
      ((Text.lower (Files.extension path)).dropWhile (· == '.')).toString
    else (Datum.text "json").shown) = traceFormat path := rfl
  rw [known]
  obtain ⟨journal, saved⟩ :=
    trace.save_of_writeTo (traceFormat_known path) written s.observers.journal
  rw [saved]
  dsimp only
  have left (records : List Record) : Yields (log records) { v with files } (.ok ())
    { v with files } := yields_log (.inl logging)
  refine (yields_setFiles files v).bind ((left _).bind ?_)
  cases result with
  | ok _ => exact (yields_orFail true _).bind (yields_pure _ _)
  | error e =>
    cases e with
    | file _ => exact (yields_orFail false _).bind (yields_exit 1 _)
    | _ => exact (yields_fail _ _).stop

end CommandLine

/-! ## The library's run -/

namespace System

variable {s : System} {program : List UInt8}

/-- The system with a program loaded and keys held down, one after the other. -/
def ready (s : System) (program : List UInt8) (keys : List Key) : System :=
  keys.foldl (fun s key => (s.pressKey (.int key.val)).1) (s.loadProgram program).1

/-- What loading and each pressed key keep holds of the system that is ready. -/
theorem ready_keeps {P : System → Prop} (loaded : P (s.loadProgram program).1)
    (pressed : ∀ s key, P s → P (s.pressKey key).1) (keys : List Key) :
    P (s.ready program keys) := by
  rw [ready]
  generalize (s.loadProgram program).1 = t at loaded
  induction keys generalizing t with
  | nil => exact loaded
  | cons key keys ih => exact ih _ (pressed t _ loaded)

theorem ready_clock (s : System) (program : List UInt8) (keys : List Key) :
    (s.ready program keys).clock = s.clock :=
  ready_keeps (P := fun t => t.clock = s.clock) (s.lasts_loadProgram program).clock
    (fun t key same => (t.continues_moveKey key true).clock.trans same) keys

theorem ready_cycleCount (granted : (s.loadProgram program).2 = .ok ()) (keys : List Key) :
    (s.ready program keys).cycleCount = 0 :=
  ready_keeps (P := fun t => t.cycleCount = 0) (loadProgram_counted granted).steps
    (fun t key none_ => (t.sameCounts_moveKey key true).steps.trans none_) keys

theorem ready_recording (granted : (s.loadProgram program).2 = .ok ())
    (fresh : ∀ trace, s.observers.trace = some trace → trace.Holds 0) (keys : List Key) :
    (s.ready program keys).Recording :=
  ready_keeps (.loadProgram granted fresh) (fun _ key recording => recording.host (.moveKey key true))
    keys

theorem ready_trace (s : System) (program : List UInt8) (keys : List Key) :
    (s.ready program keys).observers.trace = s.observers.trace := by
  refine ready_keeps (P := fun t => t.observers.trace = s.observers.trace) ?_
    (fun t key same => (t.host_trace (.moveKey key true)).trans same) keys
  rw [loadProgram_observers, Observers.hearAll_trace, snapshots,
    deaf_snapshot?.filterMap (s.plain_loadNotices program), Trace.takes_none]

/-- Running neither begins nor ends a trace. -/
theorem runCycles_traced (s : System) (cycles : Int) :
    (s.runCycles cycles).1.observers.trace.isSome = s.observers.trace.isSome := by
  rw [runCycles, ← cycleTurns_foldl, turns_observers, Observers.hearAll_trace, Option.isSome_map]

theorem Sturdy.ready {config : MachineConfig} {T : ℚ} (sturdy : s.Sturdy config T)
    (program : List UInt8) (keys : List Key) : (s.ready program keys).Sturdy config T :=
  ready_keeps
    (sturdy.turn (.loadProgram program) (s.lasts_loadProgram program) (by simp [Turn.elapsed?]))
    (fun t key sturdy => sturdy.turn (.host (.moveKey key true)) (t.continues_moveKey key true).toLasts
      (by simp [Turn.elapsed?])) keys

end System
namespace CommandLine

open Run Config

variable {host : Host} {o : Options} {c : Config} {v : Shown} {fs : Files} {program : ByteArray}
  {w : Observers} {s t S : System} {tick : Number}

/-! ## The emulator's run -/

/-- How a run ends that comes to an answer. -/
def endingOf : Except Ending Unit → Ending
  | .ok () => .exit 0
  | .error e => e

theorem finish_of_yields {run : Run Unit} {answer : Except Ending Unit}
    (yields : Yields run { files := fs } answer v) :
    (finish run fs).session.shown = v ∧ (finish run fs).ending = endingOf answer := by
  obtain ⟨t, ran, shown⟩ := yields { files := fs } rfl
  rw [finish, ran]
  cases answer <;> exact ⟨shown, rfl⟩

/-- The emulator gets its system ready as the library does. -/
theorem yields_prepare {machine : Datum} (lawful : host.yaml.Lawful) (whole : 0 ≤ o.cycles)
    (given : Given host.yaml fs o.config c) (paced : (c.clocked o.clock).Paced) (plain : o.Plain)
    (made : (c.clocked o.clock).machine = .ok machine)
    (booted : ((host.machine.override machine).boot w).2 = .ok s)
    (equal : o.traced.isSome = true → w.trace = o.recorder)
    (rom : fs.read o.rom = .ok program) (granted : (s.loadProgram program.toList).2 = .ok ()) :
    ∃ t, (s.ready program.toList o.press).Twins (o.traced.isSome = true) t ∧
      Yields (prepare host o) { files := fs } (.ok (c.clocked o.clock, t))
        { output := header o s, files := fs, logging := true } := by
  have tuned := (given.tuned lawful).clocked paced
  have positive (hz : Int) (clock : o.clock = some hz) : 0 < hz := by
    rw [clock] at paced
    exact paced.positive
  obtain ⟨machine', made', pace⟩ := tuned.machine paced host.random
  rw [made] at made'
  cases made'
  obtain ⟨observers, t, booted', trace, assembled⟩ :=
    yields_assemble (v := { files := fs }) tuned plain made pace
  obtain ⟨t', again, alike⟩ := System.boot_again booted observers
  rw [booted'] at again
  cases again
  have twins : s.Twins (o.traced.isSome = true) (told t) := by
    obtain ⟨o', rfl⟩ := alike
    refine ⟨rfl, rfl, rfl, fun traced => ?_⟩
    rw [(MachineConfig.boot_start booted).2, equal traced, ← trace,
      ← (MachineConfig.boot_start booted').2]
    rfl
  obtain ⟨t₁, loaded, twins₁⟩ :=
    yields_load (o := o) (v := { output := header o s, files := fs, logging := true }) twins rom
      granted rfl
  have same : header o (told t) = header o s := by
    rw [header, header, twins.clock]
  refine ⟨told (holdKeys o.press t₁), (twins_holdKeys o.press twins₁).mapObservers rfl, ?_⟩
  unfold prepare
  refine (yields_configure whole given positive).bind (assembled.bind ?_)
  refine ((yields_printHeader o _ _).to ?_).bind (loaded.bind ?_)
  · rw [same]
    rfl
  · exact (yields_drain _ rfl).bind (yields_pure _ _)

/-- The trace of a system is written under a path, and the run ends accordingly: well, if a file can
be written there, and a float can tell so many cycles. -/
structure Saves (fs : Files) (path : String) (S : System) (out : Outcome) : Prop where
  written : ∃ trace, S.observers.trace = some trace ∧
    let written := trace.writeTo fs path (traceFormat path) Trace.noTime
    out.session.files = written.1 ∧ out.ending = endingOf (afterSaving written.2)
  status : fs.Writable path → (S.cycleCount : ℚ) < Number.reach → out.ending = .exit 0

/-- The emulator has run to the end, and shows the system that the library is left with. -/
structure Completes (o : Options) (fs : Files) (tick : Number) (S : System) (out : Outcome) :
    Prop where
  cycles : (S.cycleCount : Int) = o.cycles
  output : out.session.shown.output = header o S ++ summary o tick S
  errors : out.session.shown.errors = []
  untraced : o.traced = none → out.ending = .exit 0 ∧ out.session.files = fs
  traced : ∀ path, o.traced = some path → Saves fs path S out

/-- The emulator was stopped by a fault, and tells it with the cycles that the library counts. -/
structure Stops (o : Options) (fs : Files) (S : System) (f : Fault) (out : Outcome) : Prop where
  output : out.session.shown.output = header o S
  errors : out.session.shown.errors =
    [s!"Fatal error after {S.cycleCount} cycles: {f.message}"]
  ending : out.ending = .exit 1
  files : out.session.files = fs

theorem yields_conclude_none (untraced : o.traced = none) (plain : o.Plain)
    {traced : Prop} (twins : S.Twins traced t) :
    Yields (conclude o c tick t) v (.ok ()) { v with output := v.output ++ summary o tick S } := by
  unfold conclude
  refine (yields_printSummary twins o tick v).bind ((yields_writePictures plain c t _).bind ?_)
  exact yields_writeTrace_none untraced c t _

theorem yields_conclude {path : String} {trace : Trace} {files : Files}
    {result : Except Failure Unit} (tuned : Tuned c) (wanted : o.traced = some path)
    (plain : o.Plain) {traced : Prop} (twins : S.Twins traced t) (recording : traced)
    (recorded : S.observers.trace = some trace)
    (written : trace.writeTo v.files path (traceFormat path) Trace.noTime = (files, result))
    (logging : v.logging = true) :
    Yields (conclude o c tick t) v (afterSaving result)
      { v with output := v.output ++ summary o tick S, files } := by
  unfold conclude
  refine (yields_printSummary twins o tick v).bind ((yields_writePictures plain c t _).bind ?_)
  exact yields_writeTrace (v := { v with output := v.output ++ summary o tick S }) tuned wanted
    ((twins.trace recording).trans recorded) written logging

/-- A run leaves the clock as it is, and so what was printed before it. -/
theorem header_of_ran {answer : Except Failure (Array StepReport)}
    (ran : s.runCycles o.cycles = (S, answer)) : header o S = header o s := by
  have kept := (System.continues_runCyclesFrom o.cycles.toNat s #[]).clock
  rw [← System.runCycles, ran] at kept
  rw [header, header, kept]

section

variable (prepared : Yields (prepare host o) { files := fs } (.ok (c, t))
    { output := header o s, files := fs, logging := true })
  (twins : s.Twins (o.traced.isSome = true) t) (lasts : s.stepTime = .ok tick)
  (passes : host.bar o.cycles = .ok ())

include prepared twins lasts

theorem yields_emulate {answer : Except Ending Unit}
    (rest : Yields (runCycles host.bar o tick t >>= conclude o c tick)
      { output := header o s, files := fs, logging := true } answer v) :
    Yields (emulate host o) { files := fs } answer v := by
  have lasts' : t.stepTime = .ok tick := by
    rw [System.stepTime, twins.clock]
    exact lasts
  unfold emulate
  refine prepared.bind ?_
  dsimp only
  rw [lasts']
  exact (yields_orFail tick _).bind rest

include passes

/-- A run that the library completes is completed, shown and saved. -/
theorem completes {reports : Array StepReport} (tuned : Tuned c) (plain : o.Plain)
    (ran : s.runCycles o.cycles = (S, .ok reports)) (counted : (S.cycleCount : Int) = o.cycles)
    (recorded : o.traced.isSome = true → S.observers.trace.isSome = true ∧ S.Recording) :
    Completes o fs tick S (finish (emulate host o) fs) := by
  have same := header_of_ran ran
  obtain ⟨T, yields, twins'⟩ := yields_runCycles passes twins lasts (v := {
    output := header o s, files := fs, logging := true }) rfl ran
  cases wanted : o.traced with
  | none =>
    obtain ⟨shown, ending⟩ := finish_of_yields (yields_emulate prepared twins lasts
      (yields.bind (yields_conclude_none wanted plain twins')))
    refine ⟨counted, by rw [shown, same], by rw [shown], fun _ => ⟨ending, ?_⟩,
      fun _ impossible => ?_⟩
    · exact congrArg Shown.files shown
    · rw [wanted] at impossible
      cases impossible
  | some path =>
    have traced : o.traced.isSome = true := by rw [wanted]; rfl
    obtain ⟨some_, recording⟩ := recorded traced
    obtain ⟨trace, there⟩ := Option.isSome_iff_exists.mp some_
    rcases written : trace.writeTo fs path (traceFormat path) Trace.noTime with ⟨files, result⟩
    obtain ⟨shown, ending⟩ := finish_of_yields (yields_emulate prepared twins lasts
      (yields.bind (yields_conclude tuned wanted plain twins' traced there written rfl)))
    have left := congrArg Shown.files shown
    refine ⟨counted, by rw [shown, same], by rw [shown], fun untraced => ?_, fun path' named => ?_⟩
    · rw [wanted] at untraced
      cases untraced
    · rw [wanted] at named
      cases named
      refine ⟨⟨trace, there, ?_⟩, fun writable inside => ?_⟩
      · rw [written]
        exact ⟨left, ending⟩
      · obtain ⟨files', fine⟩ := (recording trace there).writeTo inside writable (traceFormat path)
        rw [written] at fine
        cases fine
        exact ending

/-- A run that a fault breaks off is stopped by it. -/
theorem stops {f : Fault} (ran : s.runCycles o.cycles = (S, .error (.fault f))) :
    Stops o fs S f (finish (emulate host o) fs) := by
  have same := header_of_ran ran
  obtain ⟨shown, ending⟩ := finish_of_yields (yields_emulate prepared twins lasts
    (yields_runCycles_fault passes twins lasts rfl ran).stop)
  exact ⟨by rw [shown, same], by rw [shown]; rfl, ending, congrArg Shown.files shown⟩

end

/-- **The command line agrees with the library**, for every program that fits, settings that tune a
machine at a sensible pace, any library for YAML, and a progress bar that lets the cycles pass.  The
library's machine has the same settings and, where no seed is set, the same source of random bytes,
whatever it gives; it may be watched by anything, and has an equal recorder if the trace is asked for.
What it is left with when all cycles have run is what the emulator shows and saves; a fault that
breaks it off is what the emulator tells, behind the cycles that were completed before it; and
nothing else breaks it off. -/
theorem emulator_agrees {arguments : List String} (read : Options.read arguments = .ok o)
    (whole : 0 ≤ o.cycles) (passes : host.bar o.cycles = .ok ()) (lawful : host.yaml.Lawful)
    (plain : o.Plain) (given : Given host.yaml fs o.config c) (paced : (c.clocked o.clock).Paced)
    (rom : fs.read o.rom = .ok program) (fits : program.toList.length ≤ 3584)
    (equal : o.traced.isSome = true → w.trace = o.recorder) :
    ∃ machine s tick, (c.clocked o.clock).machine = .ok machine ∧
      ((host.machine.override machine).boot w).2 = .ok s ∧
      (s.loadProgram program.toList).2 = .ok () ∧ s.stepTime = .ok tick ∧
      match (s.ready program.toList o.press).runCycles o.cycles with
      | (S, .ok _) => Completes o fs tick S (emulatorOn host arguments fs)
      | (S, .error (.fault f)) => Stops o fs S f (emulatorOn host arguments fs) ∧
          (s.ready program.toList o.press).BreaksOff o.cycles.toNat f S.cycleCount S
      | (_, .error _) => False := by
  have tuned := (given.tuned lawful).clocked paced
  obtain ⟨machine, made, pace⟩ := tuned.machine paced host.random
  obtain ⟨s, booted, sturdy, clock, trace⟩ := pace.boots w
  obtain ⟨tick, brief, ticks⟩ := pace.tick
  have granted : (s.loadProgram program.toList).2 = .ok () := by
    have capacity := System.boot_capacity booted
    rw [pace.memorySize, pace.programStart] at capacity
    have room : (program.toList.length : Int) ≤ s.machine.memory.capacity := by
      rw [capacity, show (defaultMemorySize : Int) - defaultProgramStart = 3584 from rfl]
      exact_mod_cast fits
    obtain ⟨memory, loaded⟩ := Memory.loadRom_of_fits room
    exact (System.loadProgram_of_ok loaded).1
  obtain ⟨t, twins, prepared⟩ :=
    yields_prepare lawful whole given paced plain made booted equal rom granted
  refine ⟨machine, s, tick, made, booted, granted, ticks s clock, ?_⟩
  have lasts := ticks (s.ready program.toList o.press) ((s.ready_clock _ _).trans clock)
  have same : header o s = header o (s.ready program.toList o.press) := by
    rw [header, header, s.ready_clock]
  rw [same] at prepared
  rw [emulatorOn, read]
  rcases ran : (s.ready program.toList o.press).runCycles o.cycles with ⟨S, e | reports⟩
  · obtain ⟨f, rfl, count, breaks⟩ :=
      (sturdy.ready program.toList o.press).breaks_off pace.toStandard lasts brief ran
    have counted := breaks.counted
    rw [System.ready_cycleCount granted, Nat.zero_add] at counted
    rw [← counted] at breaks
    exact ⟨stops prepared twins lasts passes ran, breaks⟩
  · have counted := (System.runCyclesFrom_counts ran).1
    rw [System.ready_cycleCount granted] at counted
    refine completes prepared twins lasts passes tuned plain ran (by omega) fun traced => ?_
    obtain ⟨new, opened, fresh⟩ := recorder_of_traced traced
    rw [equal traced, opened] at trace
    have kept := (s.ready program.toList o.press).runCycles_traced o.cycles
    rw [ran, s.ready_trace, trace] at kept
    refine ⟨kept, System.Recording.runCyclesFrom (System.ready_recording granted ?_ o.press) ran⟩
    intro other there
    rw [trace] at there
    cases there
    exact fresh

/-- Two cycles with settings from a file, a key held down, and the trace saved. -/
def asked : List String :=
  ["--rom", "loop", "--cycles", "2", "--config", "c.json", "--press", "a", "--trace", "t.csv",
    "--ascii"]

/-- What they are read as. -/
def askedOptions : Options where
  rom := "loop"
  cycles := 2
  config := some "c.json"
  press := [10]
  trace := some "t.csv"
  ascii := true

/-- A program that jumps to itself. -/
def loop : ByteArray := ⟨#[0x12, 0x00]⟩

/-- A clock and timers that are slower than by default. -/
def slow : List (Datum × Datum) :=
  [(.text "cpu", .record [("clock_hz", .int 500)]),
    (.text "timers", .record [("rate_hz", .int 50)])]

def slowText : String :=
  "\x7b\"cpu\":\x7b\"clock_hz\":500\x7d,\"timers\":\x7b\"rate_hz\":50\x7d\x7d"

def folder : Files where
  entries := [(["loop"], .file loop), (["c.json"], .file slowText.toUTF8)]

/-- What watches the library's machine: an equal recorder. -/
def recording : Observers := { (default : Observers) with trace := askedOptions.recorder }

theorem read_asked : Options.read asked = .ok askedOptions := by
  have given : readArguments emulatorFlags asked = .ok [
      (⟨["--rom"], .text, true⟩, .text "loop"), (⟨["--cycles"], .integer, false⟩, .integer 2),
      (⟨["--config"], .text, false⟩, .text "c.json"), (⟨["--press"], .key, false⟩, .key 10),
      (⟨["--trace"], .text, false⟩, .text "t.csv"), (⟨["--ascii"], .flag, false⟩, .set)] := by
    decide +kernel
  rw [Options.read, given]
  rfl

theorem given_slow : Given Yaml.library folder askedOptions.config (default.merge slow) := by
  have format : Format.ofExtension? (Text.lower (Files.extension "c.json")) = some .json := by
    decide +kernel
  have there : folder.readText "c.json" = .ok slowText := by cbv
  have parsed : Format.json.parse Yaml.library "c.json" slowText = .ok (.dict slow) := by cbv
  exact .file (by decide) format there parsed (by simp [Tunes, slow, tunable]) rfl

theorem paced_slow : (default.merge slow).Paced := by
  have proper : (Datum.dict slow).Proper := by decide
  have cpu : Datum.lookup (.text "cpu") slow = some (.dict [(.text "clock_hz", .int 500)]) := rfl
  have timers : Datum.lookup (.text "timers") slow = some (.dict [(.text "rate_hz", .int 50)]) :=
    rfl
  have clock : path "cpu.clock_hz" = ["cpu", "clock_hz"] := rfl
  have rate : path "timers.rate_hz" = ["timers", "rate_hz"] := rfl
  refine ⟨⟨500, get_merge clock proper cpu rfl (fun _ => Datum.noConfusion) _, by decide,
    by decide⟩, .int 50, 50, get_merge rate proper timers rfl (fun _ => Datum.noConfusion) _,
    rfl, ?_⟩
  norm_num

theorem emulator_agrees_asked : askedOptions.Plain ∧ (default.merge slow).Paced ∧
    let host := Host.standard (.listed [7, 1])
    ∃ machine s tick, (default.merge slow).machine = .ok machine ∧
      ((host.machine.override machine).boot recording).2 = .ok s ∧
      s.stepTime = .ok tick ∧
      (∀ S reports, (s.ready loop.toList [10]).runCycles 2 = (S, .ok reports) →
        Completes askedOptions folder tick S (emulatorOn host asked folder)) ∧
      ∀ S f, (s.ready loop.toList [10]).runCycles 2 = (S, .error (.fault f)) →
        Stops askedOptions folder S f (emulatorOn host asked folder) := by
  have plain : askedOptions.Plain := ⟨rfl, rfl⟩
  have rom : folder.read askedOptions.rom = .ok loop := by cbv
  have counted : countingBar askedOptions.cycles = .ok () := if_neg (by decide)
  have passes : (Host.standard (.listed [7, 1])).bar askedOptions.cycles = .ok () := counted
  obtain ⟨machine, s, tick, made, booted, -, lasts, agrees⟩ :=
    emulator_agrees (w := recording) read_asked (by decide) passes Yaml.library_lawful plain
      given_slow paced_slow rom (by decide +kernel) fun _ => rfl
  refine ⟨plain, paced_slow, machine, s, tick, made, booted, lasts, ?_, ?_⟩
  · intro S reports ran
    rw [show (s.ready loop.toList askedOptions.press).runCycles askedOptions.cycles = _ from ran]
      at agrees
    exact agrees
  · intro S f ran
    rw [show (s.ready loop.toList askedOptions.press).runCycles askedOptions.cycles = _ from ran]
      at agrees
    exact agrees.1

end CommandLine
end ChipEight
