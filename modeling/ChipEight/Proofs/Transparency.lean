import ChipEight.Proofs.Notices
/-! # Nobody sees that they are watched

Systems are alike that differ in nothing but their observers.  An operation is blind if it gives
alike systems the same answer and leaves them alike; each operation of a system is
(`System.Blind`), and so is each request to a system or to one of its parts, which is put together
from blind ones (`Running.Blind`).  By induction on what happens, a system answers the requests
that are made to it, and ends, as if nobody watched it (`System.run_alike`), whatever the host does
to the observers in between. -/

namespace ChipEight
namespace System

/-- The system with other observers. -/
def watchedBy (s : System) (o : Observers) : System := { s with observers := o }

/-- Systems that differ in nothing but their observers. -/
def Alike (s t : System) : Prop := ∃ o, t = s.watchedBy o

variable {s t u : System}

theorem alike_watchedBy (s : System) (o : Observers) : s.Alike (s.watchedBy o) := ⟨o, rfl⟩

theorem Alike.refl (s : System) : s.Alike s := ⟨s.observers, rfl⟩

theorem Alike.symm (alike : s.Alike t) : t.Alike s := by
  obtain ⟨o, rfl⟩ := alike
  exact ⟨s.observers, rfl⟩

theorem Alike.trans (first : s.Alike t) (second : t.Alike u) : s.Alike u := by
  obtain ⟨o, rfl⟩ := first
  obtain ⟨o', rfl⟩ := second
  exact ⟨o', rfl⟩

theorem mapObservers_alike (s : System) (change : Observers → Observers) :
    (s.mapObservers change).Alike s := ⟨s.observers, rfl⟩

/-- One answer from systems that are alike afterwards. -/
inductive Agree {α : Type} : System × Except Failure α → System × Except Failure α → Prop
  | intro {s t : System} (answer : Except Failure α) : s.Alike t → Agree (s, answer) (t, answer)

/-- An operation that alike systems answer alike, and that leaves them alike. -/
def Blind {α : Type} (run : System → System × Except Failure α) : Prop :=
  ∀ s t, s.Alike t → Agree (run s) (run t)

/-! ## The operations -/

theorem blind_step : Blind step := by
  rintro s _ ⟨o, rfl⟩
  simp only [step, watchedBy]
  rcases s.machine.step with ⟨m, e | r⟩
  · cases e <;> exact .intro _ (alike_watchedBy ..)
  · exact .intro _ (alike_watchedBy ..)

theorem blind_updateTimers (elapsed : Number) : Blind (updateTimers · elapsed) := by
  rintro s _ ⟨o, rfl⟩
  simp only [updateTimers, watchedBy]
  rcases s.machine.timers.update elapsed with ⟨timers, e | ticks⟩
  · exact .intro _ (alike_watchedBy ..)
  · dsimp only
    split <;> exact .intro _ (alike_watchedBy ..)

theorem blind_loadProgram (program : List UInt8) : Blind (loadProgram · program) := by
  rintro s _ ⟨o, rfl⟩
  simp only [loadProgram, watchedBy]
  cases s.machine.memory.loadRom program <;> exact .intro _ (alike_watchedBy ..)

theorem blind_loadRom (fs : Files) (path : String) : Blind (loadRom · fs path) := by
  rintro s _ ⟨o, rfl⟩
  simp only [loadRom, loadProgram, watchedBy]
  cases fs.read path with
  | error e => exact .intro _ (alike_watchedBy ..)
  | ok content =>
    dsimp only
    cases s.machine.memory.loadRom content.toList <;> exact .intro _ (alike_watchedBy ..)

theorem blind_reset : Blind reset := by
  rintro s _ ⟨o, rfl⟩
  by_cases empty : s.program.isEmpty = true
  · simp only [reset, addNotes, mapObservers, watchedBy, empty]
    exact .intro _ (alike_watchedBy ..)
  · simp only [reset, addNotes, mapObservers, watchedBy, empty]
    cases s.machine.memory.reset.loadRom s.program <;> exact .intro _ (alike_watchedBy ..)

theorem blind_runSteps (n : Nat) (done : Array StepReport) : Blind (runSteps n · done) := by
  induction n generalizing done with
  | zero => exact fun s t alike => .intro _ alike
  | succ n ih =>
    intro s t alike
    have stepped := blind_step s t alike
    simp only [runSteps]
    generalize s.step = x, t.step = y at stepped
    obtain ⟨answer, after⟩ := stepped
    cases answer with
    | error e => exact .intro _ after
    | ok r => exact ih (done.push r) _ _ after

theorem blind_runFor (elapsed : Number) : Blind (runFor · elapsed) := by
  intro s t alike
  have owed : t.owe elapsed = s.owe elapsed := by
    obtain ⟨o, rfl⟩ := alike
    rfl
  have owing (debt : Float) : Alike { s with debt } { t with debt } := by
    obtain ⟨o, rfl⟩ := alike
    exact ⟨o, rfl⟩
  simp only [runFor, owed]
  cases s.owe elapsed with
  | error e => exact .intro _ alike
  | ok debt =>
    dsimp only
    cases Number.truncate? debt with
    | none => exact .intro _ (owing debt)
    | some cycles =>
      dsimp only
      have ran := blind_runSteps cycles.toNat #[] _ _
        (owing (debt - (Number.floatOfInt? cycles).getD 0.0))
      dsimp only at ran
      generalize runSteps _ _ #[] = x at ran ⊢
      generalize runSteps _ _ #[] = y at ran ⊢
      obtain @⟨s, t, answer, after⟩ := ran
      cases answer with
      | error e => exact .intro _ after
      | ok reports =>
        have passed : Agree (s.updateTimers elapsed) (t.updateTimers elapsed) :=
          blind_updateTimers elapsed s t after
        dsimp only
        generalize s.updateTimers elapsed = x, t.updateTimers elapsed = y at passed
        obtain ⟨answer, after⟩ := passed
        cases answer <;> exact .intro _ after

theorem blind_runCyclesFrom (n : Nat) (done : Array StepReport) :
    Blind (runCyclesFrom n · done) := by
  induction n generalizing done with
  | zero => exact fun s t alike => .intro _ alike
  | succ n ih =>
    intro s t alike
    have stepped := blind_step s t alike
    simp only [runCyclesFrom]
    generalize s.step = x, t.step = y at stepped
    obtain @⟨s, t, answer, after⟩ := stepped
    cases answer with
    | error e => exact .intro _ after
    | ok r =>
      have lasts : t.stepTime = s.stepTime := by
        obtain ⟨o, rfl⟩ := after
        rfl
      simp only [lasts]
      cases s.stepTime with
      | error e => exact .intro _ after
      | ok elapsed =>
        have passed : Agree (s.updateTimers elapsed) (t.updateTimers elapsed) :=
          blind_updateTimers elapsed s t after
        dsimp only
        generalize s.updateTimers elapsed = x, t.updateTimers elapsed = y at passed
        obtain ⟨answer, after⟩ := passed
        cases answer with
        | error e => exact .intro _ after
        | ok ticks => exact ih (done.push r) _ _ after

theorem blind_moveKey (key : Datum) (down : Bool) : Blind (moveKey · key down) := by
  rintro s _ ⟨o, rfl⟩
  simp only [moveKey]
  cases keyOf key <;> exact .intro _ (alike_watchedBy ..)

theorem blind_setKeys (states : List Bool) : Blind (setKeys · states) := by
  rintro s _ ⟨o, rfl⟩
  simp only [setKeys, watchedBy]
  cases s.machine.keypad.setKeys states <;> exact .intro _ (alike_watchedBy ..)

theorem blind_moveHostKey (name : Datum) (down : Bool) : Blind (moveHostKey · name down) := by
  rintro s _ ⟨o, rfl⟩
  have bound : (s.watchedBy o).boundKey name = s.boundKey name := rfl
  simp only [moveHostKey, bound]
  cases s.boundKey name with
  | none => exact .intro _ (alike_watchedBy ..)
  | some key =>
    have moved : Agree (s.moveKey key down) ((s.watchedBy o).moveKey key down) :=
      blind_moveKey key down _ _ (alike_watchedBy s o)
    dsimp only
    generalize s.moveKey key down = x, (s.watchedBy o).moveKey key down = y at moved
    obtain ⟨answer, after⟩ := moved
    cases answer <;> exact .intro _ after

end System

/-! ## The requests -/

/-- Hosts whose systems are alike, with the same files and configuration. -/
def Host.Alike (h h' : Host) : Prop := ∃ o, h' = { h with system := h.system.watchedBy o }

namespace Running

/-- A request that alike hosts answer alike, and that leaves them alike. -/
def Blind {α : Type} (run : Running α) : Prop :=
  ∀ h h', h.Alike h' → (run.run h).1 = (run.run h').1 ∧ (run.run h).2.Alike (run.run h').2

variable {α β : Type} {run : Running α}

theorem blind_pure (a : α) : Blind (pure a) := fun _ _ alike => ⟨rfl, alike⟩

theorem blind_throw (e : Failure) : Blind (throw e : Running α) := fun _ _ alike => ⟨rfl, alike⟩

theorem bind_run (run : Running α) (next : α → Running β) (h : Host) :
    (run >>= next).run h = match run.run h with
      | (.ok a, h') => (next a).run h'
      | (.error e, h') => (.error e, h') := by
  rw [ExceptT.run_bind]
  change StateT.bind run.run _ h = _
  rw [StateT.bind]
  rcases run.run h with ⟨e | a, h'⟩ <;> rfl

theorem blind_bind {next : α → Running β} (first : Blind run) (second : ∀ a, Blind (next a)) :
    Blind (run >>= next) := by
  intro h h' alike
  rw [bind_run, bind_run]
  obtain ⟨answer, after⟩ := first h h' alike
  generalize run.run h = x, run.run h' = y at answer after
  rcases x with ⟨e | a, g⟩ <;> rcases y with ⟨e' | a', g'⟩ <;> cases answer
  · exact ⟨rfl, after⟩
  · exact second a g g' after

theorem blind_ofExcept (result : Except Failure α) : Blind (ofExcept result) := by
  cases result with
  | error e => exact blind_throw e
  | ok a => exact blind_pure a

theorem blind_ofFault (result : Except Fault α) : Blind (ofFault result) := by
  cases result with
  | error f => exact blind_throw (.fault f)
  | ok a => exact blind_pure a

theorem blind_machine : Blind machine := by
  rintro h _ ⟨o, rfl⟩
  exact ⟨rfl, o, rfl⟩

theorem blind_setMachine (m : Machine) : Blind (setMachine m) := by
  rintro h _ ⟨o, rfl⟩
  exact ⟨rfl, o, rfl⟩

theorem blind_modifyObservers (change : System → Observers → Observers) :
    Blind (modifySystem fun s => s.mapObservers (change s)) := by
  rintro h _ ⟨o, rfl⟩
  exact ⟨rfl, change (h.system.watchedBy o) o, rfl⟩

theorem blind_note (records : List Record) : Blind (note records) :=
  blind_modifyObservers fun _ o => o.addNotes records

/-- Who reads the observers only to change them sees nothing. -/
theorem blind_observers (change : Observers → Observers) {next : Running β} (rest : Blind next) :
    Blind (do let o ← observers; setObservers (change o); next) := by
  rintro h _ ⟨o, rfl⟩
  exact rest { h with system := h.system.mapObservers change } _ ⟨change o, rfl⟩

theorem blind_files {next : Files → Running β} (rest : ∀ files, Blind (next files)) :
    Blind (do let h ← get; next h.files) := by
  rintro h _ ⟨o, rfl⟩
  exact rest h.files h _ ⟨o, rfl⟩

theorem blind_onSystem {run : System → System × Except Failure α} (blind : System.Blind run) :
    Blind (onSystem run) := by
  rintro h _ ⟨o, rfl⟩
  rw [System.onSystem_run, System.onSystem_run]
  have agreed := blind h.system _ (System.alike_watchedBy h.system o)
  dsimp only
  generalize run h.system = x, run (h.system.watchedBy o) = y at agreed
  obtain ⟨answer, o', rfl⟩ := agreed
  exact ⟨rfl, o', rfl⟩

theorem blind_noticeDirect (alone : Bool) (r : StepReport) : Blind (noticeDirect alone r) := by
  cases alone with
  | true => exact blind_note _
  | false => exact blind_modifyObservers fun s o => o.noticeUnknown r s.cycleCount

theorem blind_directStep (alone : Bool) : Blind (directStep alone) := by
  refine blind_bind blind_machine fun m => ?_
  refine blind_observers (fun o => { o with journal := m.journalStep o.journal }) ?_
  refine blind_bind (blind_setMachine _) fun _ => blind_bind (blind_ofExcept _) fun r => ?_
  exact blind_bind (blind_noticeDirect alone r) fun _ => blind_pure r

end Running

/-- What a host can ask of a system and its parts. -/
inductive Request where
  | system (q : SystemRequest)
  | memory (q : MemoryRequest)
  | registers (q : RegistersRequest)
  | timers (q : TimersRequest)
  | keypad (q : KeypadRequest)
  | display (q : DisplayRequest)
  | processor (q : ProcessorRequest)

def Request.run : Request → Running Reply
  | .system q => q.run
  | .memory q => q.run
  | .registers q => q.run
  | .timers q => q.run
  | .keypad q => q.run
  | .display q => q.run
  | .processor q => q.run false

open Running

theorem SystemRequest.blind (q : SystemRequest) : Blind q.run := by
  have only {α : Type} {run : System → System × Except Failure α} (blind : System.Blind run)
      (reply : α → Reply) : Blind (do return reply (← onSystem run)) :=
    blind_bind (blind_onSystem blind) fun a => blind_pure (reply a)
  cases q with
  | loadProgram program => exact only (System.blind_loadProgram program) _
  | loadRom path =>
    have read (files : Files) : Blind (do onSystem (·.loadRom files path); return Reply.none) :=
      only (System.blind_loadRom files path) _
    exact blind_files read
  | reset => exact only System.blind_reset _
  | step => exact only System.blind_step _
  | updateTimers elapsed => exact only (System.blind_updateTimers elapsed) _
  | runFor elapsed => exact only (System.blind_runFor elapsed) _
  | runCycles cycles => exact only (System.blind_runCyclesFrom cycles.toNat #[]) _
  | pressKey key => exact only (System.blind_moveKey key true) _
  | releaseKey key => exact only (System.blind_moveKey key false) _
  | setKeys states => exact only (System.blind_setKeys states) _
  | pressHostKey name => exact only (System.blind_moveHostKey name true) _
  | releaseHostKey name => exact only (System.blind_moveHostKey name false) _

theorem MemoryRequest.blind (q : MemoryRequest) : Blind q.run := by
  refine blind_bind blind_machine fun m => ?_
  have put (memory : Memory) : Blind (do setMachine { m with memory }; return Reply.none) :=
    blind_bind (blind_setMachine _) fun _ => blind_pure _
  cases q with
  | read address => exact blind_bind (blind_ofFault _) fun _ => blind_pure _
  | readWord address => exact blind_bind (blind_ofFault _) fun _ => blind_pure _
  | write address value => exact blind_bind (blind_ofFault _) put
  | writeBlock address data => exact blind_bind (blind_ofFault _) put
  | loadRom program =>
    exact blind_bind (blind_ofFault _) fun loaded => blind_bind (blind_note _) fun _ => put loaded
  | glyphAddress digit => exact blind_pure _
  | dump start length => exact blind_bind (blind_ofExcept _) fun _ => blind_pure _
  | reset => exact blind_bind (blind_note _) fun _ => put _

theorem RegistersRequest.blind (q : RegistersRequest) : Blind q.run := by
  refine blind_bind blind_machine fun m => ?_
  have put (registers : Registers) (reply : Reply) :
      Blind (do setMachine { m with registers }; return reply) :=
    blind_bind (blind_setMachine _) fun _ => blind_pure _
  cases q with
  | push address => exact blind_bind (blind_ofFault _) fun r => put r _
  | pop => exact blind_bind (blind_ofFault _) fun popped => put popped.2 _
  | poke position value => exact blind_bind (blind_ofExcept _) fun r => put r _
  | _ => exact put _ _

theorem TimersRequest.blind (q : TimersRequest) : Blind q.run := by
  refine blind_bind blind_machine fun m => ?_
  have put (timers : Timers) (reply : Reply) :
      Blind (do setMachine { m with timers }; return reply) :=
    blind_bind (blind_setMachine _) fun _ => blind_pure _
  cases q with
  | tick => exact blind_bind (blind_note _) fun _ => put _ _
  | update elapsed =>
    refine blind_bind (blind_setMachine _) fun _ => blind_bind (blind_ofExcept _) fun _ => ?_
    exact blind_bind (blind_note _) fun _ => blind_pure _
  | _ => exact put _ _

theorem KeypadRequest.blind (q : KeypadRequest) : Blind q.run := by
  refine blind_bind blind_machine fun m => ?_
  have put (keypad : Keypad) (reply : Reply) :
      Blind (do setMachine { m with keypad }; return reply) :=
    blind_bind (blind_setMachine _) fun _ => blind_pure _
  cases q with
  | press key =>
    exact blind_bind (blind_ofExcept _) fun _ => blind_bind (blind_note _) fun _ => put _ _
  | release key =>
    exact blind_bind (blind_ofExcept _) fun _ => blind_bind (blind_note _) fun _ => put _ _
  | setKeys states =>
    exact blind_bind (blind_ofExcept _) fun _ => blind_bind (blind_note _) fun _ => put _ _
  | isPressed number => exact blind_pure _
  | waitForKey => exact blind_bind (blind_note _) fun _ => put _ _
  | reset => exact put _ _

theorem DisplayRequest.blind (q : DisplayRequest) : Blind q.run := by
  refine blind_bind blind_machine fun m => ?_
  have put (display : Display) (reply : Reply) :
      Blind (do setMachine { m with display }; return reply) :=
    blind_bind (blind_setMachine _) fun _ => blind_pure _
  cases q with
  | drawSprite x y sprite => exact blind_bind (blind_ofExcept _) fun drawn => put drawn.1 _
  | getPixel x y => exact blind_bind (blind_ofExcept _) fun _ => blind_pure _
  | toAscii on off => exact blind_pure _
  | _ => exact put _ _

theorem ProcessorRequest.blind (alone : Bool) (q : ProcessorRequest) : Blind (q.run alone) := by
  refine blind_bind blind_machine fun m => ?_
  cases q with
  | step => exact blind_bind (blind_directStep alone) fun _ => blind_pure _
  | execute i address =>
    refine blind_observers (fun o =>
      { o with journal := m.journalExecute i (address.getD m.registers.pc) o.journal }) ?_
    refine blind_bind (blind_setMachine _) fun _ => blind_bind (blind_ofExcept _) fun r => ?_
    exact blind_bind (blind_noticeDirect alone r) fun _ => blind_pure _
  | fetch => exact blind_bind (blind_ofExcept _) fun _ => blind_pure _
  | reset => exact blind_bind (blind_note _) fun _ =>
      blind_bind (blind_setMachine _) fun _ => blind_pure _

theorem Request.blind (q : Request) : Blind q.run := by
  cases q with
  | system q => exact q.blind
  | memory q => exact q.blind
  | registers q => exact q.blind
  | timers q => exact q.blind
  | keypad q => exact q.blind
  | display q => exact q.blind
  | processor q => exact q.blind false

/-! ## What happens to a system -/

/-- The host asks for something, with the files as they are then, or does something to the
observers: lets handlers in and out, sets filters and limits, attaches or detaches an error log or
a trace. -/
inductive Happening where
  | asked (files : Files) (q : Request)
  | watched (change : Observers → Observers)

/-- What is asked for. -/
def Happening.request? : Happening → Option (Files × Request)
  | .asked files q => some (files, q)
  | .watched _ => none

def requests (happenings : List Happening) : List (Files × Request) :=
  happenings.filterMap Happening.request?

namespace System

variable {s t : System}

/-- The answer to a request, and the system after it. -/
def ask (s : System) (files : Files) (q : Request) : Except Failure Reply × System :=
  let result := q.run.run { system := s, files }
  (result.1, result.2.system)

/-- The answers to what a system is asked for, one after the other, and the system that is left. -/
def run (s : System) : List Happening → List (Except Failure Reply) × System
  | [] => ([], s)
  | .watched change :: rest => (s.mapObservers change).run rest
  | .asked files q :: rest =>
    let later := (s.ask files q).2.run rest
    ((s.ask files q).1 :: later.1, later.2)

theorem ask_alike (files : Files) (q : Request) (alike : s.Alike t) :
    (s.ask files q).1 = (t.ask files q).1 ∧ (s.ask files q).2.Alike (t.ask files q).2 := by
  obtain ⟨o, rfl⟩ := alike
  obtain ⟨answer, o', after⟩ := q.blind { system := s, files } _ ⟨o, rfl⟩
  exact ⟨answer, o', congrArg Host.system after⟩

/-- Requests with nothing between them. -/
def unwatched (requests : List (Files × Request)) : List Happening :=
  requests.map fun (files, q) => .asked files q

theorem run_unwatched (happenings : List Happening) (alike : s.Alike t) :
    (s.run happenings).1 = (t.run (unwatched (requests happenings))).1 ∧
      (s.run happenings).2.Alike (t.run (unwatched (requests happenings))).2 := by
  induction happenings generalizing s t with
  | nil => exact ⟨rfl, alike⟩
  | cons happening rest ih =>
    cases happening with
    -- only the watched system moves here, and stays alike
    | watched change => exact ih ((s.mapObservers_alike change).trans alike)
    | asked files q =>
      obtain ⟨answer, after⟩ := ask_alike files q alike
      obtain ⟨answers, last⟩ := ih after
      exact ⟨congrArg₂ List.cons answer answers, last⟩

/-- **Alike systems that are asked for the same answer the same**, and are alike in the end. -/
theorem run_alike {xs ys : List Happening} (alike : s.Alike t) (same : requests xs = requests ys) :
    (s.run xs).1 = (t.run ys).1 ∧ (s.run xs).2.Alike (t.run ys).2 := by
  obtain ⟨answers, last⟩ := run_unwatched xs alike
  obtain ⟨answers', last'⟩ := run_unwatched ys (.refl t)
  rw [same] at answers last
  exact ⟨answers.trans answers'.symm, last.trans last'.symm⟩

/-- Whether a system can be put together, and which, does not depend on its observers. -/
theorem boot_alike (config : MachineConfig) (o o' : Observers) :
    (∃ e, (config.boot o).2 = .error e ∧ (config.boot o').2 = .error e) ∨
      ∃ s t, (config.boot o).2 = .ok s ∧ (config.boot o').2 = .ok t ∧ s.Alike t := by
  simp only [MachineConfig.boot]
  cases Memory.create config.memorySize config.programStart with
  | error e => exact .inl ⟨e, rfl, rfl⟩
  | ok memory =>
    cases Display.create config.width config.height with
    | error e => exact .inl ⟨e, rfl, rfl⟩
    | ok display =>
      cases Timers.create config.timerRate with
      | error e => exact .inl ⟨e, rfl, rfl⟩
      | ok timers => exact .inr ⟨_, _, rfl, rfl, _, rfl⟩

end System

/-! ## Snapshots -/

/-- A mapping with the entries of a snapshot. -/
def snapshotOf (cycle pc opcode mnemonic : Datum) (registers : List (Datum × Datum)) : Datum :=
  .record [("cycle", cycle), ("pc", pc), ("opcode", opcode), ("mnemonic", mnemonic),
    ("registers", .dict registers)]

namespace Trace

section
variable (t : Trace) (cycle pc opcode mnemonic : Datum) (registers : List (Datum × Datum))

theorem restrict_snapshot (filter : Option (List String)) : ∃ kept,
    restrict filter (snapshotOf cycle pc opcode mnemonic registers) =
      .ok (snapshotOf cycle pc opcode mnemonic kept) := by
  cases filter with
  | none => exact ⟨registers, rfl⟩
  | some names =>
    exact ⟨registers.filter fun entry => names.any fun n => entry.1.same (.text n), rfl⟩

theorem noteCycle_snapshot : ∃ t',
    t.noteCycle (snapshotOf cycle pc opcode mnemonic registers) = .ok t' := ⟨_, rfl⟩

theorem noteNames_snapshot : ∃ t',
    t.noteNames (snapshotOf cycle pc opcode mnemonic registers) = .ok t' := ⟨_, rfl⟩

end

/-- A trace takes the snapshot of every step, whatever it keeps of it. -/
theorem add_snapshot (t : Trace) (after : Machine) (cycle : Nat) (r : StepReport) :
    (t.add (Observers.snapshot after cycle r)).2 = .ok () := by
  obtain ⟨c, pc, opcode, mnemonic, registers, form⟩ : ∃ c pc opcode mnemonic registers,
      Observers.snapshot after cycle r = snapshotOf c pc opcode mnemonic registers :=
    ⟨_, _, _, _, _, rfl⟩
  obtain ⟨kept, restricted⟩ := restrict_snapshot c pc opcode mnemonic registers t.filter
  rw [form, add, restricted]
  dsimp only
  obtain ⟨t', cycled⟩ :=
    noteCycle_snapshot { t with total := t.total + 1 } c pc opcode mnemonic kept
  rw [cycled]
  dsimp only
  obtain ⟨t'', named⟩ := noteNames_snapshot t' c pc opcode mnemonic kept
  rw [named]

end Trace

/-! ## With and without observers -/

namespace System

/-- **Observers are transparent.**  Whoever observes a system, and whatever the host does to the
observers between two requests: whether the system can be put together, what it answers and how it
ends is the same.  Nor does a trace ever refuse the snapshot of a step. -/
theorem observers_transparent (config : MachineConfig) (o o' : Observers) {xs ys : List Happening}
    (same : requests xs = requests ys) :
    ((∃ e, (config.boot o).2 = .error e ∧ (config.boot o').2 = .error e) ∨
      ∃ s t, (config.boot o).2 = .ok s ∧ (config.boot o').2 = .ok t ∧
        (s.run xs).1 = (t.run ys).1 ∧ (s.run xs).2.Alike (t.run ys).2) ∧
    ∀ (trace : Trace) (after : Machine) (cycle : Nat) (r : StepReport),
      (trace.add (Observers.snapshot after cycle r)).2 = .ok () := by
  refine ⟨?_, fun trace => trace.add_snapshot⟩
  rcases boot_alike config o o' with failed | ⟨s, t, booted, booted', alike⟩
  · exact .inl failed
  · exact .inr ⟨s, t, booted, booted', run_alike alike same⟩

/-- Observers with a handler that consumes and fails, an error log whose callback fails, and a trace
without room. -/
def unruly : Observers where
  bus :=
    let quiet := (Bus.create 0).setFilter [.keyPress]
    (quiet.enlistNamed {} .unknownInstruction "saboteur" .critical .consumeAndFail).1
  errors := some { keeps := false, limit := 0, callbacks := [(.instruction, ⟨"saboteur", true⟩)] }
  trace := some { limit := some 0, filter := some ["V0"] }
  journal := {}

theorem observers_transparent_unruly :
    let asked : List Happening := [
      .asked {} (.system (.loadProgram [0x00, 0x00])), .asked {} (.system .step),
      .asked {} (.processor .step)]
    let alone := .watched (fun _ => default) :: asked
    requests asked = requests alone ∧
      ∃ s t, (({} : MachineConfig).boot unruly).2 = .ok s ∧
        (({} : MachineConfig).boot default).2 = .ok t ∧
        (s.run asked).1 = (t.run alone).1 ∧ (s.run asked).2.Alike (t.run alone).2 := by
  intro asked alone
  have same : requests asked = requests alone := rfl
  refine ⟨same, (observers_transparent {} unruly default same).1.resolve_left ?_⟩
  rintro ⟨e, failed, -⟩
  cases failed

end System
end ChipEight
