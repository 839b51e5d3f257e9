import Mathlib.Data.List.Chain
import ChipEight.Proofs.Executions
/-! # What a trace records

A trace that has room takes one snapshot for each step that returns, and nothing else
(`System.snapshots_noticesOf`).  A snapshot looks both ways: the address and the word are those from
which the step was fetched, the registers those that it left behind (`Tells`).  As only steps move
the program counter, each snapshot begins where the one before it ends (`Linked`).
`System.trace_faithful` says so of every run. -/

namespace ChipEight

/-- The registers and timers of a machine under their names. -/
def Machine.readings (m : Machine) : List (String × Int) :=
  (List.finRange 16).map (fun x => (x.name, (m.V x : Int))) ++
    [("I", m.registers.index), ("PC", m.registers.pc), ("SP", (m.registers.stack.length : Int)),
      ("DT", (m.timers.delay.toNat : Int)), ("ST", (m.timers.sound.toNat : Int))]

/-- A snapshot tells of the step between two machines: its number, the address and the word from
which it was fetched, and every register after it. -/
structure Tells (before after : Machine) (cycle : Nat) (snapshot : Datum) : Prop where
  cycle : snapshot.field? "cycle" = some (.int cycle)
  pc : snapshot.field? "pc" = some (.int before.registers.pc)
  word : ∃ w, before.WordAt w ∧ snapshot.field? "opcode" = some (.int w) ∧
    snapshot.field? "mnemonic" = some (.text (Instruction.decode w).disassemble)
  registers : snapshot.field? "registers" =
    some (.record (after.readings.map fun (name, value) => (name, .int value)))

/-- The second snapshot begins where the first one ends. -/
def Linked (first second : Datum) : Prop :=
  second.field? "pc" = (first.field? "registers").bind (·.field? "PC")

namespace Trace

variable {t t' : Trace} {d : Datum}

/-- So many more snapshots push none out. -/
def HasRoom (t : Trace) (count : Nat) : Prop :=
  ∀ limit, t.limit = some limit → t.history.length + count ≤ limit

/-- Two traces that keep the same, in the same way. -/
structure SameKeeping (t t' : Trace) : Prop where
  limit : t'.limit = t.limit
  filter : t'.filter = t.filter
  history : t'.history = t.history

theorem sameKeeping_noteCycle (h : t.noteCycle d = .ok t') : t.SameKeeping t' := by
  rw [noteCycle] at h
  cases contained : d.contains "cycle" with
  | error e =>
    rw [contained] at h
    cases h
  | ok there =>
    rw [contained] at h
    cases there with
    | false =>
      cases h
      exact ⟨rfl, rfl, rfl⟩
    | true =>
      cases found : d.index "cycle" <;>
        simp only [found, bind, Except.bind, if_true] at h <;> cases h
      exact ⟨rfl, rfl, rfl⟩

theorem sameKeeping_noteNames (h : t.noteNames d = .ok t') : t.SameKeeping t' := by
  rw [noteNames] at h
  cases contained : d.contains "registers" with
  | error e =>
    rw [contained] at h
    cases h
  | ok there =>
    rw [contained] at h
    cases there with
    | false =>
      cases h
      exact ⟨rfl, rfl, rfl⟩
    | true =>
      cases found : d.index "registers" with
      | error e =>
        simp only [found, bind, Except.bind, if_true] at h
        cases h
      | ok registers =>
        simp only [found, bind, Except.bind, if_true] at h
        cases registers <;> cases h
        exact ⟨rfl, rfl, rfl⟩

theorem keepLast_of_le {α : Type} {limit : Option Nat} {xs : List α}
    (fits : ∀ n, limit = some n → xs.length ≤ n) : keepLast limit xs = xs := by
  cases limit with
  | none => rfl
  | some n => rw [keepLast, Nat.sub_eq_zero_of_le (fits n rfl), List.drop_zero]

/-- A trace without a filter keeps what it takes, while it has room. -/
theorem add_of_room (unfiltered : t.filter = none) (room : t.HasRoom 1)
    (taken : (t.add d).2 = .ok ()) :
    (t.add d).1.limit = t.limit ∧ (t.add d).1.filter = t.filter ∧
      (t.add d).1.history = t.history ++ [d] := by
  have restricted : restrict t.filter d = .ok d := by rw [unfiltered, restrict]
  rw [add, restricted] at taken ⊢
  cases cycled : { t with total := t.total + 1 }.noteCycle d with
  | error e =>
    simp only [cycled] at taken
    cases taken
  | ok t₁ =>
    simp only [cycled] at taken ⊢
    cases named : t₁.noteNames d with
    | error e =>
      simp only [named] at taken
      cases taken
    | ok t₂ =>
      simp only
      obtain ⟨limit₁, filter₁, history₁⟩ := sameKeeping_noteCycle cycled
      obtain ⟨limit₂, filter₂, history₂⟩ := sameKeeping_noteNames named
      have limit : t₂.limit = t.limit := limit₂.trans limit₁
      have history : t₂.history = t.history := history₂.trans history₁
      refine ⟨limit, filter₂.trans filter₁, ?_⟩
      rw [limit, history, keepLast_of_le]
      intro n bound
      rw [List.length_append]
      exact room n bound

/-- The trace after snapshots that come one after the other. -/
def takes (t : Trace) (snapshots : List Datum) : Trace :=
  snapshots.foldl (fun t d => (t.add d).1) t

/-- Without snapshots there is nothing to take. -/
theorem takes_none (t : Option Trace) : t.map (·.takes []) = t := by
  cases t <;> rfl

theorem takes_history {snapshots : List Datum} (unfiltered : t.filter = none)
    (room : t.HasRoom snapshots.length)
    (taken : ∀ d ∈ snapshots, ∀ t : Trace, (t.add d).2 = .ok ()) :
    (t.takes snapshots).history = t.history ++ snapshots := by
  induction snapshots generalizing t with
  | nil => exact (List.append_nil _).symm
  | cons d rest ih =>
    rw [List.forall_mem_cons] at taken
    have first : t.HasRoom 1 := fun limit bound => by
      have := room limit bound
      rw [List.length_cons] at this
      omega
    obtain ⟨limit, filter, history⟩ := add_of_room unfiltered first (taken.1 t)
    have later : (t.add d).1.HasRoom rest.length := fun n bound => by
      have := room n (limit.symm.trans bound)
      rw [history, List.length_append, List.length_singleton]
      rw [List.length_cons] at this
      omega
    rw [takes, List.foldl_cons, ← takes, ih (filter.trans unfiltered) later taken.2, history,
      List.append_assoc, List.singleton_append]

end Trace

/-! ## Snapshots among notices -/

def Notice.snapshot? : Notice → Option Datum
  | .snapshot state => some state
  | _ => none

/-- The snapshots among notices, in their order. -/
def snapshots (notices : List Notice) : List Datum := notices.filterMap Notice.snapshot?

theorem snapshots_append (xs ys : List Notice) :
    snapshots (xs ++ ys) = snapshots xs ++ snapshots ys := List.filterMap_append

theorem deaf_snapshot? : Deaf Notice.snapshot? := by
  intro notice plain
  cases notice with
  | snapshot state => exact plain.elim
  | _ => rfl

namespace Observers

/-- The trace hears of nothing but snapshots. -/
theorem hear_trace (o : Observers) (notice : Notice) :
    (o.hear notice).trace = o.trace.map (·.takes (snapshots [notice])) := by
  cases notice with
  | snapshot state =>
    rw [hear, record]
    cases trace : o.trace with
    | none => exact trace
    | some t => rfl
  | lines records => exact (Trace.takes_none _).symm
  | event type source payload => exact (Trace.takes_none _).symm
  | report fault raised context =>
    exact (o.report_trace fault raised context).trans (Trace.takes_none _).symm
  | instruction payload =>
    rw [hear]
    split <;> exact (Trace.takes_none _).symm

theorem hearAll_trace (o : Observers) (notices : List Notice) :
    (o.hearAll notices).trace = o.trace.map (·.takes (snapshots notices)) := by
  induction notices generalizing o with
  | nil => exact (Trace.takes_none _).symm
  | cons notice rest ih =>
    rw [hearAll, List.foldl_cons, ← hearAll, ih, hear_trace, Option.map_map,
      show snapshots (notice :: rest) = _ from snapshots_append [notice] rest]
    congr 1
    funext t
    exact List.foldl_append.symm

end Observers

/-- The snapshot of a step. -/
def Execution.snapshot (e : Execution) : Datum :=
  Observers.snapshot e.after.machine (e.before.cycleCount + 1) e.report

namespace System

variable {s t : System} {turn_ : Turn} {turns : List Turn} {r : StepReport}

/-- **One snapshot for each step that returns**, in the order of the steps. -/
theorem snapshots_noticesOf (s : System) (turns : List Turn) :
    snapshots (s.noticesOf turns) = (s.executions turns).map Execution.snapshot := by
  rw [snapshots, filterMap_noticesOf deaf_snapshot?, List.map_eq_flatMap]
  congr 1
  funext e
  have unknown : (Observers.unknownNotices e.report e.before.cycleCount).filterMap
      Notice.snapshot? = [] := by
    rw [Observers.unknownNotices]
    cases e.report.fault? <;> rfl
  rw [Execution.notices, Observers.filterMap_stepNotices deaf_snapshot?, unknown]
  rfl

/-- **A snapshot tells of its step.** -/
theorem tells_snapshot (h : s.step = (t, .ok r)) :
    Tells s.machine t.machine (s.cycleCount + 1)
      (Observers.snapshot t.machine (s.cycleCount + 1) r) := by
  obtain ⟨w, word, address, instruction, -⟩ := step_report h
  refine ⟨rfl, ?_, ⟨w, word, ?_, ?_⟩, ?_⟩
  · rw [← System.pc, ← address]
    rfl
  · have opcode : r.instruction.opcode = w := by rw [instruction, Machine.decode_of_lt word.lt]
    rw [← opcode]
    rfl
  · rw [← instruction]
    rfl
  · have readings : t.machine.readings = t.machine.registers.named ++
        [("DT", (t.machine.timers.delay.toNat : Int)),
          ("ST", (t.machine.timers.sound.toNat : Int))] := by
      rw [Registers.named, List.append_assoc]
      rfl
    rw [readings, List.map_append]
    rfl

/-! ## One step after the other -/

/-- Another turn than a step that returns, and than a load or a reset, leaves the program counter
where it is. -/
theorem idle_pc (idle : s.execution? turn_ = none) (goesOn : turn_.GoesOn) :
    (s.turn turn_).pc = s.pc := by
  cases turn_ with
  | step =>
    rcases execution?_eq_none idle with other | ⟨t, f, failed⟩
    · exact absurd rfl other
    · rw [step] at failed
      rw [turn, pc, pc, step_machine]
      rcases stepped : s.machine.step with ⟨m, e | r⟩
      · rw [Machine.step_fails_values stepped]
      · rw [stepped] at failed
        cases failed
  | host action => rw [turn, pc, s.host_hostMoves action, pc]
  | owe debt => rfl
  | _ => exact goesOn.elim

/-- **Each step starts where the one before it has led**, the first where the system stands. -/
theorem executions_chain (goesOn : ∀ turn_ ∈ turns, turn_.GoesOn) :
    (∀ e ∈ (s.executions turns).head?, e.before.pc = s.pc) ∧
      (s.executions turns).IsChain fun e e' => e'.before.pc = e.after.pc := by
  induction turns generalizing s with
  | nil => exact ⟨by simp [executions], .nil⟩
  | cons turn_ turns ih =>
    rw [List.forall_mem_cons] at goesOn
    obtain ⟨first, chain⟩ := ih (s := s.turn turn_) goesOn.2
    rw [executions]
    cases executed : s.execution? turn_ with
    | none =>
      rw [idle_pc executed goesOn.1] at first
      exact ⟨first, chain⟩
    | some e =>
      obtain ⟨rfl, rfl, -⟩ := execution?_eq_some.mp executed
      refine ⟨?_, List.isChain_cons.mpr ⟨first, chain⟩⟩
      rintro _ ⟨⟩
      rfl

end System

/-- The snapshots of two steps are linked where the second starts at the end of the first. -/
theorem Execution.linked {e e' : Execution} (stepped : e'.before.step = (e'.after, .ok e'.report))
    (follows : e'.before.pc = e.after.pc) : Linked e.snapshot e'.snapshot := by
  obtain ⟨-, -, address, -⟩ := System.step_report stepped
  have second : e'.snapshot.field? "pc" = some (.int e'.report.address) := rfl
  have first : (e.snapshot.field? "registers").bind (·.field? "PC") = some (.int e.after.pc) := rfl
  rw [Linked, second, first, address, follows]

namespace System

variable {s : System} {turns : List Turn} {t : Trace}

/-- The snapshots that a trace takes in a run, behind those that it has: one for each step that
returns, with the number of the step and what it tells, and each linked to the one before it. -/
structure Records (s : System) (turns : List Turn) (t : Trace) (snaps : List Datum) : Prop where
  kept : ∃ t', (turns.foldl turn s).observers.trace = some t' ∧ t'.history = t.history ++ snaps
  each : snaps.length = (s.executions turns).length
  tells : ∀ k e, (s.executions turns)[k]? = some e → ∃ d, snaps[k]? = some d ∧
    Tells e.before.machine e.after.machine (s.cycleCount + k + 1) d
  linked : snaps.IsChain Linked

/-- **A trace is faithful.**  A trace that has no filter, but room for them, takes the snapshots of
a run, however keys and time come between the steps. -/
theorem trace_faithful (recording : s.observers.trace = some t) (unfiltered : t.filter = none)
    (room : t.HasRoom (s.executions turns).length)
    (goesOn : ∀ turn_ ∈ turns, turn_.GoesOn) : ∃ snaps, s.Records turns t snaps := by
  have trace := congrArg Observers.trace (turns_observers s turns)
  rw [Observers.hearAll_trace, recording, snapshots_noticesOf] at trace
  refine ⟨(s.executions turns).map Execution.snapshot,
    ⟨_, trace, Trace.takes_history unfiltered ?_ ?_⟩, List.length_map _, ?_, ?_⟩
  · rwa [List.length_map]
  · intro d mem t
    obtain ⟨e, -, rfl⟩ := List.mem_map.mp mem
    exact t.add_snapshot e.after.machine (e.before.cycleCount + 1) e.report
  · intro k e found
    have stepped := mem_executions (List.mem_of_getElem? found)
    have counted := executions_cycleCount (unbroken_of_goesOn goesOn) found
    refine ⟨e.snapshot, by rw [List.getElem?_map, found, Option.map_some], ?_⟩
    rw [← counted]
    exact tells_snapshot stepped
  · refine (List.isChain_map _).mpr ((executions_chain goesOn).2.imp_of_mem_imp ?_)
    intro e e' _ mem follows
    exact Execution.linked (mem_executions mem) follows

/-- Stores V0 over the very instruction that stores it (`LD I, 54`, `LD [I], V0`), and jumps on the
spot (`JP 56`). -/
def selfish : List UInt8 := [0xA0, 0x54, 0xF0, 0x55, 0x10, 0x56]

/-- Two steps, a key, two steps, and half a second. -/
def mixed : List Turn := [.step, .step, .host (.moveKey (.int 3) true), .step, .step,
  .host (.updateTimers (.float 0.5))]

/-- Observers with a trace that has room for six snapshots. -/
def recorder : Observers := { (default : Observers) with
  trace := some { limit := some 6, filter := none } }

theorem trace_faithful_selfish : ∃ s t, (small.boot recorder).2 = .ok s ∧
    (s.loadProgram selfish).1.observers.trace = some t ∧ t.filter = none ∧
    t.HasRoom ((s.loadProgram selfish).1.executions mixed).length ∧
    (∀ turn_ ∈ mixed, turn_.GoesOn) ∧
    ((s.loadProgram selfish).1.executions mixed).length = 4 ∧
    ∃ snaps, (s.loadProgram selfish).1.Records mixed t snaps := by
  obtain ⟨s, booted⟩ : ∃ s, (small.boot recorder).2 = .ok s := ⟨_, rfl⟩
  have executed : ((s.loadProgram selfish).1.executions mixed).length = 4 := by
    cases booted
    decide +kernel
  obtain ⟨t, recording, unfiltered, limit, history⟩ :
      ∃ t : Trace, (s.loadProgram selfish).1.observers.trace = some t ∧ t.filter = none ∧
        t.limit = some 6 ∧ t.history = [] := by
    cases booted
    exact ⟨_, rfl, rfl, rfl, rfl⟩
  have room : t.HasRoom ((s.loadProgram selfish).1.executions mixed).length := fun n bound => by
    rw [executed, history, List.length_nil, ← Option.some.inj (limit.symm.trans bound)]
    decide
  have goesOn : ∀ turn_ ∈ mixed, turn_.GoesOn := by simp [mixed, Turn.GoesOn]
  exact ⟨s, t, booted, recording, unfiltered, room, goesOn, executed,
    trace_faithful recording unfiltered room goesOn⟩

end System
end ChipEight
