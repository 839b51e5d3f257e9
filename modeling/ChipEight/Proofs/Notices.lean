import ChipEight.Proofs.Turns
/-! # What the observers are told

What a turn tells the observers, written down in the order in which it is told (`System.notices`).
After a turn the observers are as they were before it, but that they have heard this and nothing
else (`System.turn_observers`), and so it is after a run of requests
(`System.requests_observers`). -/

namespace ChipEight

/-- One thing that the observers are told. -/
inductive Notice where
  /-- Lines for the journal. -/
  | lines (records : List Record)
  | report (fault : Fault) (raised : Bool) (context : Datum)
  | event (type : EventType) (source : String) (payload : Datum)
  /-- An instruction that is executed, which is published only where someone listens. -/
  | instruction (payload : Datum)
  | snapshot (state : Datum)

/-- The payload of a notice that is an event of a type. -/
def Notice.payload? (type : EventType) : Notice → Option Datum
  | .event type' _ payload => if type' = type then some payload else none
  | _ => none

/-- The payloads of the events of a type, in the order in which they are fired. -/
def fired (type : EventType) (notices : List Notice) : List Datum :=
  notices.filterMap (Notice.payload? type)

@[simp] theorem fired_append (type : EventType) (xs ys : List Notice) :
    fired type (xs ++ ys) = fired type xs ++ fired type ys := List.filterMap_append

def Notice.type? : Notice → Option EventType
  | .event type _ _ => some type
  | _ => none

/-- The types of the events that are fired, in the order in which they are fired. -/
def announced (notices : List Notice) : List EventType := notices.filterMap Notice.type?

@[simp] theorem announced_nil : announced [] = [] := rfl

@[simp] theorem announced_append (xs ys : List Notice) :
    announced (xs ++ ys) = announced xs ++ announced ys := List.filterMap_append

@[simp] theorem announced_cons (notice : Notice) (notices : List Notice) :
    announced (notice :: notices) = notice.type?.toList ++ announced notices := by
  rw [announced, List.filterMap_cons]
  cases notice.type? <;> rfl

theorem fired_eq_nil {type : EventType} {notices : List Notice} (h : type ∉ announced notices) :
    fired type notices = [] := by
  refine List.filterMap_eq_nil_iff.mpr fun notice mem => ?_
  cases notice with
  | event type' source payload =>
    have other : type' ≠ type := by
      rintro rfl
      exact h (List.mem_filterMap.mpr ⟨_, mem, rfl⟩)
    exact if_neg other
  | _ => rfl

namespace Observers

def hear (o : Observers) : Notice → Observers
  | .lines records => o.addNotes records
  | .report fault raised context => o.report fault raised context
  | .event type source payload => o.publish type source payload
  | .instruction payload =>
    if o.bus.hasObservers .cpuInstruction then o.publish .cpuInstruction "cpu" payload else o
  | .snapshot state => o.record fun _ => state

def hearAll (o : Observers) (notices : List Notice) : Observers := notices.foldl hear o

theorem hearAll_append (o : Observers) (xs ys : List Notice) :
    o.hearAll (xs ++ ys) = (o.hearAll xs).hearAll ys := List.foldl_append

/-! ## Steps -/

/-- The report and the event of a word that is no instruction. -/
def unknownNotices (r : StepReport) (cycle : Nat) : List Notice :=
  match r.fault? with
  | none => []
  | some fault => [
    .report fault false (.record [("cycle", .int cycle)]),
    .event .unknownInstruction "cpu"
      (.record [("opcode", .int r.instruction.opcode), ("address", .int r.address)])]

def effectNotices (before after : Machine) (r : StepReport) : List Notice :=
  match r.instruction.operation with
  | .clear => [.event .displayClear "display" .null]
  | .draw x y rows => [.event .displayDraw "display" (.record [
      ("x", .int (after.registers.get x).toNat),
      ("y", .int (after.registers.get y).toNat),
      ("rows", .int rows),
      ("collision", .bool (after.registers.flag != 0))])]
  | _ =>
    if r.waiting && before.keypad.state != .awaiting then
      [.event .keyWait "cpu" (.record [("register", .int r.instruction.x)])]
    else []

def toneNotices (before after : Machine) : List Notice :=
  if after.timers.toneActive && !before.timers.toneActive then
    [.event .toneStart "timers" (.record [("duration", .int after.timers.sound.toNat)])]
  else []

/-- What a successful step tells; `cycle` is the number of steps before it. -/
def stepNotices (before after : Machine) (cycle : Nat) (r : StepReport) : List Notice :=
  unknownNotices r cycle ++
    .instruction (.record [("address", .int r.address), ("opcode", .int r.instruction.opcode)]) ::
    effectNotices before after r ++ toneNotices before after ++
    [.snapshot (snapshot after (cycle + 1) r)]

theorem announced_unknownNotices (r : StepReport) (cycle : Nat) :
    announced (unknownNotices r cycle) ⊆ [.unknownInstruction] := by
  rw [unknownNotices]
  cases r.fault? <;> simp [Notice.type?]

theorem announced_effectNotices (before after : Machine) (r : StepReport) :
    announced (effectNotices before after r) ⊆ [.displayClear, .displayDraw, .keyWait] := by
  rw [effectNotices]
  split
  · simp [Notice.type?]
  · simp [Notice.type?]
  · split <;> simp [Notice.type?]

theorem announced_toneNotices (before after : Machine) :
    announced (toneNotices before after) =
      if after.timers.toneActive && !before.timers.toneActive then [.toneStart] else [] := by
  rw [toneNotices]
  split <;> rfl

/-- The events of a step come from three sides. -/
theorem announced_stepNotices (before after : Machine) (cycle : Nat) (r : StepReport) :
    announced (stepNotices before after cycle r) =
      announced (unknownNotices r cycle) ++ announced (effectNotices before after r) ++
        announced (toneNotices before after) := by
  simp [stepNotices, Notice.type?]

/-- The events of a step but for unknown words and tones are those of its effect. -/
theorem fired_stepNotices {type : EventType} (unknown : type ≠ .unknownInstruction)
    (tone : type ≠ .toneStart) (before after : Machine) (cycle : Nat) (r : StepReport) :
    fired type (stepNotices before after cycle r) = fired type (effectNotices before after r) := by
  have first : fired type (unknownNotices r cycle) = [] :=
    fired_eq_nil fun mem =>
      unknown (List.mem_singleton.mp (announced_unknownNotices r cycle mem))
  have last : fired type (toneNotices before after) = [] := by
    refine fired_eq_nil fun mem => ?_
    rw [announced_toneNotices] at mem
    split at mem
    · exact tone (List.mem_singleton.mp mem)
    · cases mem
  rw [stepNotices, fired_append, fired_append, fired_append, first, last]
  exact (List.append_nil _).trans (List.append_nil _)

theorem noticeUnknown_eq (o : Observers) (r : StepReport) (cycle : Nat) :
    o.noticeUnknown r cycle = o.hearAll (unknownNotices r cycle) := by
  rw [noticeUnknown, unknownNotices]
  cases r.fault? <;> rfl

theorem noticeEffect_eq (o : Observers) (before after : Machine) (r : StepReport) :
    o.noticeEffect before after r = o.hearAll (effectNotices before after r) := by
  rw [noticeEffect, effectNotices]
  cases r.instruction.operation with
  | clear | draw _ _ _ => rfl
  | _ =>
    dsimp only
    split <;> rfl

theorem noticeTone_eq (o : Observers) (before after : Machine) :
    o.noticeTone before after = o.hearAll (toneNotices before after) := by
  rw [noticeTone, toneNotices]
  split <;> rfl

theorem noticeStep_eq (o : Observers) (before after : Machine) (cycle : Nat) (r : StepReport) :
    o.noticeStep before after cycle r = o.hearAll (stepNotices before after cycle r) := by
  rw [noticeStep, noticeUnknown_eq, noticeEffect_eq, noticeTone_eq, stepNotices]
  simp only [hearAll_append]
  rfl

end Observers

/-- The lines of an instruction that is about to be executed. -/
def Machine.stepLines (m : Machine) : List Record :=
  match m.fetchWord with
  | .error _ => []
  | .ok word =>
    ⟨.debug, .cpu, traceLine (.decode word) m.registers.pc⟩ :: m.executeNotes (.decode word)

theorem Machine.journalStep_eq (m : Machine) (j : Journal) :
    m.journalStep j = j.addAll m.stepLines := by
  rw [journalStep, stepLines]
  cases m.fetchWord <;> rfl

namespace System

variable {s : System}

/-! ## Turns -/

def loadNotices (s : System) (program : List UInt8) : List Notice :=
  match s.machine.memory.loadRom program with
  | .error f => [.report f true .null]
  | .ok _ => [
    .lines (s.machine.memory.loadRomNotes program),
    .lines s.machine.resetNotes,
    .event .programLoaded "system"
      (.record [("size", .int program.length), ("name", .text s.romName)])]

def loadRomNotices (s : System) (fs : Files) (path : String) : List Notice :=
  match fs.read path with
  | .error _ => []
  | .ok content =>
    let s := { s with romName := Files.baseName path }
    let program := content.toList
    s.loadNotices program ++
      match s.machine.memory.loadRom program with
      | .error _ => []
      | .ok _ =>
        [.lines [⟨.info, .system, s!"Loaded ROM: {s.romName} ({program.length} bytes)"⟩]]

def resetNotices (s : System) : List Notice :=
  let memory := s.machine.memory.reset
  let done : List Notice := [
    .lines s.machine.resetNotes, .event .systemReset "system" .null,
    .lines [⟨.info, .system, "System reset"⟩]]
  .lines Memory.resetNotes ::
    if s.program.isEmpty then done
    else
      match memory.loadRom s.program with
      | .ok _ => .lines (memory.loadRomNotes s.program) :: done
      | .error _ => []

def stepNotices (s : System) : List Notice :=
  .lines s.machine.stepLines ::
    match s.machine.step with
    | (machine, .error (.fault f)) => [.report f true
        (.record [("pc", .int machine.registers.pc), ("cycle", .int s.cycleCount)])]
    | (_, .error _) => []
    | (machine, .ok r) => Observers.stepNotices s.machine machine s.cycleCount r

/-- What a key that goes up or down tells. -/
def keyNotices (s : System) (key : Datum) (down : Bool) : List Notice :=
  match keyOf key with
  | .error _ => []
  | .ok k => [
    .lines (s.machine.keypad.setKeyNotes k down),
    .event (keyEvent down) "keypad" (.record [("key", key)])]

def setKeysNotices (s : System) (states : List Bool) : List Notice :=
  match s.machine.keypad.setKeys states with
  | .error _ => []
  | .ok keypad =>
    .lines (s.machine.keypad.setKeysNotes states) ::
      (changedKeys s.machine.keypad keypad).map fun (k, down) =>
        .event (keyEvent down) "keypad" (.record [("key", .int k.val)])

def timerNotices (s : System) (elapsed : Number) : List Notice :=
  match s.machine.timers.update elapsed with
  | (_, .error _) => []
  | (timers, .ok ticks) =>
    .lines (s.machine.timers.tickNotes ticks) ::
      if timers.toneEnded then [.event .toneEnd "timers" .null] else []

def hostNotices (s : System) : HostAction → List Notice
  | .moveKey key down => s.keyNotices key down
  | .setKeys states => s.setKeysNotices states
  | .updateTimers elapsed => s.timerNotices elapsed
  | .moveHostKey name down =>
    match s.boundKey name with
    | none => []
    | some key => s.keyNotices key down

/-- What a turn tells the observers. -/
def notices (s : System) : Turn → List Notice
  | .loadProgram program => s.loadNotices program
  | .loadRom fs path => s.loadRomNotices fs path
  | .reset => s.resetNotices
  | .step => s.stepNotices
  | .host action => s.hostNotices action
  | .owe _ => []

theorem loadProgram_observers (s : System) (program : List UInt8) :
    (s.loadProgram program).1.observers = s.observers.hearAll (s.loadNotices program) := by
  rw [loadProgram, loadNotices]
  cases s.machine.memory.loadRom program <;> rfl

theorem loadRom_observers (s : System) (fs : Files) (path : String) :
    (s.loadRom fs path).1.observers = s.observers.hearAll (s.loadRomNotices fs path) := by
  rw [loadRom, loadRomNotices]
  cases fs.read path with
  | error e => rfl
  | ok content =>
    dsimp only
    rw [loadProgram, loadNotices]
    cases s.machine.memory.loadRom content.toList <;> rfl

theorem reset_observers (s : System) :
    s.reset.1.observers = s.observers.hearAll s.resetNotices := by
  by_cases empty : s.program.isEmpty = true
  · simp only [System.reset, resetNotices, addNotes, mapObservers, empty, if_true]
    rfl
  · simp only [System.reset, resetNotices, addNotes, mapObservers, empty]
    cases s.machine.memory.reset.loadRom s.program <;> rfl

theorem step_observers (s : System) : s.step.1.observers = s.observers.hearAll s.stepNotices := by
  have started : { s.observers with journal := s.machine.journalStep s.observers.journal } =
      s.observers.hear (.lines s.machine.stepLines) := by
    rw [Machine.journalStep_eq]
    rfl
  rw [System.step, stepNotices, started]
  rcases s.machine.step with ⟨machine, e | r⟩
  · cases e <;> rfl
  · exact Observers.noticeStep_eq _ s.machine machine s.cycleCount r

theorem moveKey_observers (s : System) (key : Datum) (down : Bool) :
    (s.moveKey key down).1.observers = s.observers.hearAll (s.keyNotices key down) := by
  rw [moveKey, keyNotices]
  cases keyOf key <;> rfl

theorem setKeys_observers (s : System) (states : List Bool) :
    (s.setKeys states).1.observers = s.observers.hearAll (s.setKeysNotices states) := by
  rw [setKeys, setKeysNotices]
  cases s.machine.keypad.setKeys states with
  | error e => rfl
  | ok keypad =>
    dsimp only
    rw [Observers.hearAll, List.foldl_cons, List.foldl_map]
    rfl

theorem updateTimers_observers (s : System) (elapsed : Number) :
    (s.updateTimers elapsed).1.observers = s.observers.hearAll (s.timerNotices elapsed) := by
  rw [updateTimers, timerNotices]
  rcases s.machine.timers.update elapsed with ⟨timers, e | ticks⟩
  · rfl
  · dsimp only
    rw [Timers.consumeToneEnd]
    dsimp only
    split <;> rfl

theorem host_observers (s : System) (action : HostAction) :
    (s.host action).observers = s.observers.hearAll (s.hostNotices action) := by
  cases action with
  | moveKey key down => exact s.moveKey_observers key down
  | setKeys states => exact s.setKeys_observers states
  | updateTimers elapsed => exact s.updateTimers_observers elapsed
  | moveHostKey name down =>
    rw [host, hostNotices, moveHostKey]
    cases s.boundKey name with
    | none => rfl
    | some key =>
      dsimp only
      rw [← moveKey_observers]
      rcases s.moveKey key down with ⟨t, e | -⟩ <;> rfl

/-- **After a turn the observers have heard its notices**, and nothing else. -/
theorem turn_observers (s : System) (turn_ : Turn) :
    (s.turn turn_).observers = s.observers.hearAll (s.notices turn_) := by
  cases turn_ with
  | loadProgram program => exact s.loadProgram_observers program
  | loadRom fs path => exact s.loadRom_observers fs path
  | reset => exact s.reset_observers
  | step => exact s.step_observers
  | host action => exact s.host_observers action
  | owe debt => rfl

/-! ## Events -/

/-- The types of the events that a turn can fire. -/
def Turn.announces : Turn → List EventType
  | .loadProgram _ | .loadRom _ _ => [.programLoaded]
  | .reset => [.systemReset]
  | .step => [.unknownInstruction, .displayClear, .displayDraw, .keyWait, .toneStart]
  | .host (.updateTimers _) => [.toneEnd]
  | .host _ => [.keyPress, .keyRelease]
  | .owe _ => []

theorem announced_loadNotices (s : System) (program : List UInt8) :
    announced (s.loadNotices program) ⊆ [.programLoaded] := by
  rw [loadNotices]
  cases s.machine.memory.loadRom program <;> simp [Notice.type?]

theorem announced_loadRomNotices (s : System) (fs : Files) (path : String) :
    announced (s.loadRomNotices fs path) ⊆ [.programLoaded] := by
  rw [loadRomNotices]
  cases fs.read path with
  | error e => simp
  | ok content =>
    dsimp only
    rw [announced_append]
    refine List.append_subset.mpr ⟨announced_loadNotices _ _, ?_⟩
    cases s.machine.memory.loadRom content.toList <;> simp [Notice.type?]

theorem announced_resetNotices (s : System) : announced s.resetNotices ⊆ [.systemReset] := by
  rw [resetNotices]
  split
  · simp [Notice.type?]
  · cases s.machine.memory.reset.loadRom s.program <;> simp [Notice.type?]

theorem announced_keyNotices (s : System) (key : Datum) (down : Bool) :
    announced (s.keyNotices key down) ⊆ [.keyPress, .keyRelease] := by
  rw [keyNotices]
  cases keyOf key <;> cases down <;> simp [Notice.type?, keyEvent]

theorem announced_setKeysNotices (s : System) (states : List Bool) :
    announced (s.setKeysNotices states) ⊆ [.keyPress, .keyRelease] := by
  rw [setKeysNotices]
  cases s.machine.keypad.setKeys states with
  | error e => simp
  | ok keypad =>
    intro type mem
    obtain ⟨notice, mem, typed⟩ := List.mem_filterMap.mp mem
    rcases List.mem_cons.mp mem with rfl | mem
    · cases typed
    · obtain ⟨⟨key, down⟩, -, rfl⟩ := List.mem_map.mp mem
      cases typed
      cases down <;> simp [keyEvent]

theorem announced_timerNotices (s : System) (elapsed : Number) :
    announced (s.timerNotices elapsed) ⊆ [.toneEnd] := by
  rw [timerNotices]
  rcases s.machine.timers.update elapsed with ⟨timers, e | ticks⟩
  · simp
  · dsimp only
    split <;> simp [Notice.type?]

theorem announced_hostNotices (s : System) (action : HostAction) :
    announced (s.hostNotices action) ⊆ (Turn.host action).announces := by
  cases action with
  | moveKey key down => exact s.announced_keyNotices key down
  | setKeys states => exact s.announced_setKeysNotices states
  | updateTimers elapsed => exact s.announced_timerNotices elapsed
  | moveHostKey name down =>
    rw [hostNotices]
    cases s.boundKey name with
    | none => simp
    | some key => exact s.announced_keyNotices key down

theorem announced_stepNotices (s : System) : announced s.stepNotices ⊆ Turn.announces .step := by
  rw [stepNotices]
  rcases s.machine.step with ⟨m, e | r⟩
  · cases e <;> simp [Notice.type?]
  have unknown : announced (Observers.unknownNotices r s.cycleCount) ⊆ Turn.announces .step :=
    List.Subset.trans (Observers.announced_unknownNotices r _) (by simp [Turn.announces])
  have effect : announced (Observers.effectNotices s.machine m r) ⊆ Turn.announces .step :=
    List.Subset.trans (Observers.announced_effectNotices _ m r) (by simp [Turn.announces])
  have tone : announced (Observers.toneNotices s.machine m) ⊆ Turn.announces .step := by
    rw [Observers.announced_toneNotices]
    split <;> simp [Turn.announces]
  rw [announced_cons, Observers.announced_stepNotices]
  exact List.append_subset.mpr ⟨by simp [Notice.type?],
    List.append_subset.mpr ⟨List.append_subset.mpr ⟨unknown, effect⟩, tone⟩⟩

/-- **A turn fires no other events** than those of its kind. -/
theorem announced_notices (s : System) (turn_ : Turn) :
    announced (s.notices turn_) ⊆ turn_.announces := by
  cases turn_ with
  | loadProgram program => exact s.announced_loadNotices program
  | loadRom fs path => exact s.announced_loadRomNotices fs path
  | reset => exact s.announced_resetNotices
  | step => exact s.announced_stepNotices
  | host action => exact s.announced_hostNotices action
  | owe debt => exact List.Subset.refl _

/-! ## Runs -/

/-- What turns tell, one after the other. -/
def noticesOf (s : System) : List Turn → List Notice
  | [] => []
  | turn_ :: rest => s.notices turn_ ++ (s.turn turn_).noticesOf rest

theorem noticesOf_append (s : System) (xs ys : List Turn) :
    s.noticesOf (xs ++ ys) = s.noticesOf xs ++ (xs.foldl turn s).noticesOf ys := by
  induction xs generalizing s with
  | nil => rfl
  | cons turn_ xs ih =>
    rw [List.cons_append, noticesOf, ih, noticesOf, List.foldl_cons, List.append_assoc]

theorem turns_observers (s : System) (turns : List Turn) :
    (turns.foldl turn s).observers = s.observers.hearAll (s.noticesOf turns) := by
  induction turns generalizing s with
  | nil => rfl
  | cons turn_ turns ih =>
    rw [List.foldl_cons, ih, turn_observers, noticesOf, Observers.hearAll_append]

/-- What is asked of a system, with the files as they are then. -/
abbrev Asked := Files × SystemRequest

def serveAll (s : System) (asked : List Asked) : System :=
  asked.foldl (fun s (fs, q) => s.serve fs q) s

/-- The turns of requests that are made one after the other. -/
def turnsOf (s : System) : List Asked → List Turn
  | [] => []
  | (fs, q) :: rest => s.turns fs q ++ (s.serve fs q).turnsOf rest

theorem serveAll_turns (s : System) (asked : List Asked) :
    s.serveAll asked = (s.turnsOf asked).foldl turn s := by
  induction asked generalizing s with
  | nil => rfl
  | cons request rest ih =>
    obtain ⟨fs, q⟩ := request
    rw [turnsOf, List.foldl_append, ← serve_turns, ← ih]
    rfl

/-- **After a run of requests the observers have heard the notices of its turns**, and nothing
else. -/
theorem requests_observers (s : System) (asked : List Asked) :
    (s.serveAll asked).observers = s.observers.hearAll (s.noticesOf (s.turnsOf asked)) := by
  rw [serveAll_turns, turns_observers]

end System
end ChipEight
