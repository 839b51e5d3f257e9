import ChipEight.Proofs.Stepping
/-! # What a failing step leaves behind

`Machine.perform_fails` says what every failing operation has in common, whatever is connected and
wherever the registers point: nothing is changed, but that FX65 keeps the registers that it has
loaded before the first byte that cannot be read.  From this follow the same for a step
(`Machine.step_fails`) and that the step fails again in the same way (`Machine.step_fails_again`).
The observers of the system hear of a fault once (`Observers.report_once`) and of nothing else. -/

namespace ChipEight

/-- A failure that is no fault, or a fatal one. -/
def Failure.Grave (e : Failure) : Prop := ∀ f, e = .fault f → f.fatal = true

theorem Failure.grave_fault {f : Fault} : (Failure.fault f).Grave ↔ f.fatal = true := by
  simp [Grave]

namespace Memory

variable {m : Memory} {address : Int}

theorem read_error {f : Fault} (h : m.read address = .error f) : f = outside address := by
  rw [read] at h
  split at h
  · cases h
  · cases h
    rfl

theorem readWord_fatal {f : Fault} (h : m.readWord address = .error f) : f.fatal = true := by
  rw [readWord] at h
  split at h
  · cases h
    rfl
  split at h
  · cases h
    rfl
  · cases h

theorem writeBlock_fatal {data : List UInt8} {f : Fault} (h : m.writeBlock address data = .error f) :
    f.fatal = true := by
  by_cases some_ : data = []
  · subst some_
    cases h
  rw [writeBlock_eq m address some_] at h
  split at h
  · cases h
    rfl
  split at h
  · cases h
    rfl
  split at h
  · cases h
    rfl
  · cases h

end Memory

namespace Machine

variable {m s : Machine} {e : Failure}

/-! ## The operations -/

theorem readRun_fatal {memory : Memory} {address : Int} {count : Nat} {f : Fault}
    (h : readRun memory address count = .error f) : f.fatal = true := by
  induction count generalizing address with
  | zero => cases h
  | succ count ih =>
    rw [readRun] at h
    cases read : memory.read address with
    | error f' =>
      rw [read] at h
      cases h
      rw [Memory.read_error read]
      rfl
    | ok byte =>
      rw [read] at h
      cases rest : readRun memory (address + 1) count with
      | error f' =>
        rw [rest] at h
        cases h
        exact ih rest
      | ok bytes =>
        rw [rest] at h
        cases h

theorem fetchRegs_grave {memory : Memory} {r r' : Registers} {xs : List Reg}
    (h : fetchRegs memory r xs = (r', .error e)) : e.Grave := by
  induction xs generalizing r with
  | nil => cases h
  | cons x xs ih =>
    rw [fetchRegs] at h
    split at h
    · rename_i f read
      cases h
      rw [Failure.grave_fault, Memory.read_error read]
      rfl
    · exact ih h

/-- Whether a load fails, and how, does not depend on the values that the registers have. -/
theorem fetchRegs_values (memory : Memory) (r : Registers) (v : Vector UInt8 16) (xs : List Reg) :
    (fetchRegs memory { r with v } xs).2 = (fetchRegs memory r xs).2 := by
  induction xs generalizing r v with
  | nil => rfl
  | cons x xs ih =>
    rw [fetchRegs, fetchRegs]
    cases memory.read (r.index + x.val) with
    | error f => rfl
    | ok byte => exact (ih r (v.set x byte)).trans (ih r (r.v.set x byte)).symm

/-- An operation that fails without a trace. -/
def Untouched (m s : Machine) (e : Failure) : Prop := s = m ∧ e.Grave

theorem withPart_untouched {part : Part} {run : Unit → Machine × Except Failure Next}
    (h : m.withPart part run = (s, .error e))
    (untouched : run () = (s, .error e) → m.Untouched s e) : m.Untouched s e := by
  rw [withPart] at h
  split at h
  · exact untouched h
  · cases h
    exact ⟨rfl, fun f hf => by cases hf⟩

theorem storeBlock_untouched {data : List UInt8} (h : m.storeBlock data = (s, .error e)) :
    m.Untouched s e := by
  rw [storeBlock] at h
  split at h
  · rename_i f refused
    cases h
    exact ⟨rfl, Failure.grave_fault.mpr (Memory.writeBlock_fatal refused)⟩
  · cases h

theorem drawRows_untouched {x y : Reg} {rows : Nat} (h : m.drawRows x y rows = (s, .error e)) :
    m.Untouched s e := by
  rw [drawRows] at h
  split at h
  · cases h
    exact ⟨rfl, fun f hf => by cases hf⟩
  split at h
  · rename_i f refused
    cases h
    exact ⟨rfl, Failure.grave_fault.mpr (readRun_fatal refused)⟩
  split at h
  · cases h
    exact ⟨rfl, fun f hf => by cases hf⟩
  split at h
  · rename_i e' refused
    cases h
    rw [Display.drawSprite] at refused
    split at refused
    · cases refused
    · cases refused
      exact ⟨rfl, fun f hf => by cases hf⟩
  · cases h

/-- **An operation that fails has changed nothing**, or it is a load that has filled registers
until it came upon a byte that cannot be read. -/
theorem perform_fails {address : Int} {op : Operation}
    (h : m.perform address op = (s, .error e)) : m.Untouched s e ∨ ∃ x r, op = .fetch x ∧
      fetchRegs m.memory m.registers (regsThrough x) = (r, .error e) ∧
        s = { m with registers := r } := by
  cases op with
  | fetch x =>
    rw [perform, withPart] at h
    split at h
    · rcases fetched : fetchRegs m.memory m.registers (regsThrough x) with ⟨r, result⟩
      rw [fetched] at h
      cases h
      exact .inr ⟨x, r, rfl, fetched, rfl⟩
    · cases h
      exact .inl ⟨rfl, fun f hf => by cases hf⟩
  | ret =>
    rw [perform, Registers.pop] at h
    cases stack : m.registers.stack <;> rw [stack] at h <;> cases h
    exact .inl ⟨rfl, Failure.grave_fault.mpr rfl⟩
  | call target =>
    rw [perform, Registers.push] at h
    split at h
    · rename_i f full
      cases h
      split at full <;> cases full
      exact .inl ⟨rfl, Failure.grave_fault.mpr rfl⟩
    · cases h
  | draw x y rows => exact .inl (drawRows_untouched h)
  | digits x | store x =>
    rw [perform] at h
    exact .inl (withPart_untouched h storeBlock_untouched)
  | waitKey x =>
    rw [perform] at h
    refine .inl (withPart_untouched h fun ran => ?_)
    split at ran <;> cases ran
  | clear | skipPressed x | skipReleased x | readDelay x | setDelay x | setSound x | glyph x =>
    rw [perform] at h
    exact .inl (withPart_untouched h fun ran => by cases ran)
  | _ => cases h

/-! ## The step -/

/-- A step that fails has changed nothing, or its instruction is a load that was broken off. -/
theorem step_fails (h : m.step = (s, .error e)) : m.Untouched s e ∨
    ∃ w x r, m.wiring.has .memory = true ∧ m.WordAt w ∧ Operation.ofWord w = .fetch x ∧
      fetchRegs m.memory m.registers (regsThrough x) = (r, .error e) ∧
        s = { m with registers := r } := by
  by_cases part : m.wiring.has .memory = true
  · cases fetched : m.memory.readWord m.registers.pc with
    | error f =>
      simp only [step, fetchWord, part, not_true_eq_false, if_false, if_true, fetched] at h
      cases h
      exact .inl ⟨rfl, Failure.grave_fault.mpr (Memory.readWord_fatal fetched)⟩
    | ok w =>
      have word := Memory.readWord_ok_iff.mp fetched
      rw [step_of_word part word, execute_error_iff] at h
      rcases perform_fails h with untouched | ⟨x, r, operation, loaded, rfl⟩
      · exact .inl untouched
      · exact .inr ⟨w, x, r, part, word, operation, loaded, rfl⟩
  · rw [step, if_pos part] at h
    cases h
    exact .inl ⟨rfl, fun f hf => by cases hf⟩

theorem step_fails_grave (h : m.step = (s, .error e)) : e.Grave := by
  rcases step_fails h with ⟨-, grave⟩ | ⟨w, x, r, -, -, -, loaded, -⟩
  · exact grave
  · exact fetchRegs_grave loaded

/-- A step that has failed changed none but the sixteen registers. -/
theorem step_fails_values (h : m.step = (s, .error e)) :
    s = { m with registers := { m.registers with v := s.registers.v } } := by
  rcases step_fails h with ⟨rfl, -⟩ | ⟨w, x, r, -, -, -, loaded, rfl⟩
  · rfl
  · dsimp only
    rw [← fetchRegs_index loaded]

theorem step_fails_again (h : m.step = (s, .error e)) : ∃ t, s.step = (t, .error e) := by
  rcases step_fails h with ⟨rfl, -⟩ | ⟨w, x, r, part, word, operation, loaded, rfl⟩
  · exact ⟨_, h⟩
  have values := fetchRegs_index loaded
  -- the load reads under the same addresses again, whatever it has filled before
  have again : (fetchRegs m.memory r (regsThrough x)).2 = .error e := by
    rw [values, fetchRegs_values, loaded]
  have word' : { m with registers := r }.WordAt w := by
    rw [values]
    exact word
  have next := step_of_word (m := { m with registers := r }) part word'
  simp only [next, execute_error_iff, perform, withPart, operation, part, if_true]
  exact ⟨_, Prod.ext rfl again⟩

/-- Before a step has an effect, the journal gets debug lines alone. -/
theorem journalStep_quiet (m : Machine) (j : Journal) :
    ∃ lines : List Record, (∀ line ∈ lines, line.level = .debug) ∧
      m.journalStep j = j.addAll lines := by
  rw [journalStep]
  split
  · exact ⟨[], by simp, rfl⟩
  · rename_i w _
    refine ⟨⟨.debug, .cpu, traceLine (.decode w) m.registers.pc⟩ :: m.executeNotes (.decode w),
      ?_, rfl⟩
    have waits : ∀ line ∈ m.keypad.waitNotes, line.level = .debug := by
      rw [Keypad.waitNotes]
      split <;> simp
    have notes : ∀ line ∈ m.executeNotes (.decode w), line.level = .debug := by
      rw [executeNotes]
      split
      · split
        · exact waits
        · simp
      · simp
    intro line mem
    rcases List.mem_cons.mp mem with rfl | mem
    · rfl
    · exact notes line mem

end Machine

/-! ## The report -/

namespace Observers

/-- The line that a report leaves in the journal. -/
def reportLine (o : Observers) (r : ErrorRecord) : Record :=
  match o.errors with
  | some _ => ⟨r.level, .errorLog, r.message ++ " (" ++ r.category.name ++ ")"⟩
  | none => ⟨r.level, .system, r.message⟩

/-- A record is reported once: to the error log if there is one, which keeps it and tells its
callback, and in the journal, where all other new lines are for debugging. -/
def ReportedOnce (o : Observers) (r : ErrorRecord) (o' : Observers) : Prop :=
  ∃ lines : List Record, lines.filter (·.level != .debug) = [o.reportLine r] ∧
    o'.errors = o.errors.map (·.keep r) ∧
    o'.journal = match o.errors with
      | some log => log.notify r (o.journal.addAll lines)
      | none => o.journal.addAll lines

/-- The record of a fatal fault that has come up in a run. -/
def fatalRecord (f : Fault) (context : List (String × Datum)) : ErrorRecord where
  level := .error
  category := f.category
  message := f.message
  cause := some (.fault f)
  traced := true
  context := .record context

/-- The record of a fault, raised or not. -/
def faultRecord (f : Fault) (raised : Bool) (context : List (String × Datum)) : ErrorRecord where
  level := if f.fatal then .error else .warning
  category := f.category
  message := f.message
  cause := some (.fault f)
  traced := raised
  context := .record context

theorem report_fault {log : ErrorLog} {j : Journal} {f : Fault} {raised : Bool}
    {context : List (String × Datum)} :
    log.report j ⟨.fault f, raised⟩ (.record context) =
      (log.keep (faultRecord f raised context),
        log.notify (faultRecord f raised context)
          (j.addAll (ErrorLog.recordNotes (faultRecord f raised context))),
        faultRecord f raised context) := by
  have kept : (if (Datum.record context).truthy then Datum.record context else .dict []) =
      .record context := by cases context <;> rfl
  simp only [ErrorLog.report, ErrorLog.handle, ErrorLog.Report.toRecord, Cause.fatal, kept]
  rfl

/-- A fault that is reported after some lines for debugging is reported once. -/
theorem fault_once (o : Observers) {quiet : List Record} {f : Fault} {raised : Bool}
    {context : List (String × Datum)} (debug : ∀ line ∈ quiet, line.level = .debug) :
    o.ReportedOnce (faultRecord f raised context)
      ({ o with journal := o.journal.addAll quiet }.report f raised (.record context)) := by
  have silent : quiet.filter (·.level != .debug) = [] := by
    simpa [List.filter_eq_nil_iff] using debug
  have loud : ((if f.fatal then Level.error else Level.warning) != .debug) = true := by
    cases f.fatal <;> rfl
  have append : ∀ lines, (o.journal.addAll quiet).addAll lines = o.journal.addAll (quiet ++ lines) :=
    fun lines => List.foldl_append.symm
  cases log : o.errors with
  | none =>
    refine ⟨quiet ++ [⟨if f.fatal then .error else .warning, .system, f.message⟩], ?_, ?_, ?_⟩
    · simp [silent, loud, reportLine, log, faultRecord]
    · simp [report, log]
    · simp only [report, log, ← append]
      rfl
  | some log' =>
    refine ⟨quiet ++ ErrorLog.recordNotes (faultRecord f raised context), ?_, ?_, ?_⟩
    · cases raised <;> simp [silent, loud, reportLine, log, faultRecord, ErrorLog.recordNotes]
    · simp [report, log, report_fault]
    · simp only [report, log, report_fault, append]

theorem report_once (o : Observers) {quiet : List Record} {f : Fault}
    {context : List (String × Datum)} (debug : ∀ line ∈ quiet, line.level = .debug)
    (fatal : f.fatal = true) :
    o.ReportedOnce (fatalRecord f context)
      ({ o with journal := o.journal.addAll quiet }.report f true (.record context)) := by
  have record : fatalRecord f context = faultRecord f true context := by
    rw [fatalRecord, faultRecord, if_pos fatal]
  rw [record]
  exact o.fault_once debug

theorem report_bus (o : Observers) (f : Fault) (raised : Bool) (context : Datum) :
    (o.report f raised context).bus = o.bus := by
  rw [report]
  split <;> rfl

theorem report_trace (o : Observers) (f : Fault) (raised : Bool) (context : Datum) :
    (o.report f raised context).trace = o.trace := by
  rw [report]
  split <;> rfl

end Observers

/-! ## The system -/

namespace System

/-- A step of the system has failed with a fault, and everything is as it was before, but that the
fault is reported and that the registers may be filled in part by an FX65. -/
structure FailedCleanly (s : System) (f : Fault) (t : System) : Prop where
  frame : t = { s with machine := t.machine, observers := t.observers }
  machine : t.machine = { s.machine with
    registers := { s.machine.registers with v := t.machine.registers.v } }
  values : (∀ w x, s.machine.WordAt w → ¬ Denotes w (.fetch x)) → t.machine = s.machine
  no_event : t.observers.bus = s.observers.bus
  no_snapshot : t.observers.trace = s.observers.trace
  one_report : s.observers.ReportedOnce
    (Observers.fatalRecord f
      [("pc", .int s.machine.registers.pc), ("cycle", .int s.cycleCount)]) t.observers
  again : ∃ u, t.step = (u, .error (.fault f))

/-- **A failing step is clean.** -/
theorem step_fault_clean {s t : System} {f : Fault} (h : s.step = (t, .error (.fault f))) :
    s.FailedCleanly f t := by
  obtain ⟨m, failed⟩ := machine_step_of_fault h
  have machine := Machine.step_fails_values failed
  have fatal := Failure.grave_fault.mp (Machine.step_fails_grave failed)
  obtain ⟨quiet, debug, journal⟩ := s.machine.journalStep_quiet s.observers.journal
  obtain rfl : _ = t := congrArg Prod.fst ((step_of_fault failed).symm.trans h)
  refine ⟨rfl, machine, ?_, Observers.report_bus .., Observers.report_trace .., ?_, ?_⟩
  · intro other
    rcases Machine.step_fails failed with ⟨same, -⟩ | ⟨w, x, r, -, word, operation, -⟩
    · exact same
    · exact absurd ((denotes_iff word.lt).mpr operation) (other w x word)
  · have pc : m.registers.pc = s.machine.registers.pc := by rw [machine]
    rw [journal, pc]
    exact s.observers.report_once debug fatal
  · obtain ⟨n, again⟩ := Machine.step_fails_again failed
    exact ⟨_, step_of_fault again⟩

/-- A system that is about to load V0 and V1 with only one byte left behind the index register. -/
def loading : System :=
  let m := Machine.running #[0xF1, 0x65]
  { (default : System) with
    machine := { m with registers := { m.registers with index := 81 } } }

theorem step_fault_clean_load : ∃ t, loading.step = (t, .error (.fault (Memory.outside 82))) ∧
    loading.FailedCleanly (Memory.outside 82) t :=
  ⟨_, rfl, step_fault_clean rfl⟩

end System
end ChipEight
