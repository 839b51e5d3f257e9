import ChipEight.Text.Numeral
import ChipEight.Trace.Basic
import ChipEight.Window
/-!
Questions to a trace.
-/

namespace ChipEight.Trace

def states (t : Trace) (start stop : Option Int) : List Datum := window start stop t.history

/-! ### Cycles -/

/-- The snapshot of a cycle in a history, or the nearest seen before it and in it; the flag says
that it is the cycle itself. -/
def nearestFrom (cycle : Datum) : Option Datum → List Datum → Except Failure (Option Datum × Bool)
  | best, [] => .ok (best, false)
  | best, s :: rest => do
    if ← s.contains "cycle" then
      let here ← s.index "cycle"
      if here.same cycle then return (some s, true)
      match best with
      | none => nearestFrom cycle (some s) rest
      | some b =>
        if ← (← here.distance cycle).less (← (← b.index "cycle").distance cycle) then
          nearestFrom cycle (some s) rest
        else nearestFrom cycle best rest
    else nearestFrom cycle best rest

def nearest (t : Trace) (cycle : Datum) : Except Failure (Option Datum × Bool) :=
  nearestFrom cycle none t.history

/-- What is said when a neighbor stands in for a cycle. -/
def nearestNotes (cycle : Datum) : Option Datum × Bool → List Record
  | (some s, false) =>
    let here := (s.field? "cycle").getD .null
    [⟨.info, .recorder,
      s!"Exact cycle {cycle.shown} not found, returning nearest cycle {here.shown}"⟩]
  | _ => []

/-! ### Registers -/

/-- The registers of a snapshot. -/
def registersOf (s : Datum) : Except Failure Datum := s.getD "registers" (.dict [])

/-- The cycles and values of a register.  A snapshot without a cycle has its place in the list for
one. -/
def registerHistory (t : Trace) (name : String) : Except Failure (List (Datum × Datum)) :=
  t.history.foldlM (fun found s => do
    let registers ← registersOf s
    if ← registers.contains name then
      let cycle ← s.getD "cycle" (.int found.length)
      return found ++ [(cycle, ← registers.index name)]
    else return found) []

/-- A value as a signed 64-bit integer. -/
def wordOf (count : Nat) (d : Datum) : Except Failure Int := do
  let n ← match d with
    | .bool b => pure (if b then 1 else 0)
    | .number (.int i) => pure i
    | .number (.float f) =>
      match Number.truncate? f with
      | some i => pure i
      | none => throw (if f.isNaN then .badValue .notANumber else .beyondRange)
    | .text s =>
      match Text.parseInt? 10 s with
      | some i => pure i
      | none => throw (.badValue (.notAnInteger s))
    | .list _ => throw (.badValue (.ragged count))
    | _ => throw .wrongKind
  if n < -Number.wordLimit || Number.wordLimit ≤ n then throw .beyondRange else return n

/-- The cycles and the values of a register as words. -/
def registerArray (t : Trace) (name : String) : Except Failure (List Int × List Int) := do
  let found ← t.registerHistory name
  let cycles ← found.mapM fun (c, _) => wordOf found.length c
  let values ← found.mapM fun (_, v) => wordOf found.length v
  return (cycles, values)

/-- Whether a snapshot's cycle lies before a bound; without a cycle or a bound it does not. -/
def liesBefore (cycle : Datum) (bound : Datum) : Except Failure Bool :=
  match cycle, bound with
  | .null, _ | _, .null => .ok false
  | c, b => c.less b

/-- The changes of a register in a history, `last` being its value so far. -/
def changesFrom (name : String) (start stop : Datum) :
    Datum → List Datum → Except Failure (List Datum)
  | _, [] => .ok []
  | last, s :: rest => do
    let registers ← registersOf s
    if ← registers.contains name then
      let value ← registers.index name
      let cycle ← s.getD "cycle" .null
      if ← liesBefore cycle start then changesFrom name start stop value rest
      else if ← liesBefore stop cycle then return []
      else
        let changed := match last with
          | .null => false
          | last => !value.same last
        if changed then
          let change := Datum.record [
            ("cycle", cycle),
            ("pc", ← s.getD "pc" .null),
            ("mnemonic", ← s.getD "mnemonic" .null),
            ("old_value", last),
            ("new_value", value)]
          return change :: (← changesFrom name start stop value rest)
        else changesFrom name start stop value rest
    else changesFrom name start stop last rest

/-- The changes of a register, each with its cycle, address and instruction; bounds on the cycle
may be null. -/
def changes (t : Trace) (name : String) (start stop : Datum) : Except Failure (List Datum) :=
  changesFrom name start stop .null t.history

/-! ### Frequencies -/

/-- The values under a name in the snapshots that have it. -/
def valuesOf (name : String) : List Datum → Except Failure (List Datum)
  | [] => .ok []
  | s :: rest => do
    if ← s.contains name then
      let d ← s.index name
      return d :: (← valuesOf name rest)
    else valuesOf name rest

/-- How often each value occurs, in the order of the first occurrences. -/
def tally {α : Type} (same : α → α → Bool) (xs : List α) : List (α × Nat) :=
  let bump (counts : List (α × Nat)) (x : α) : List (α × Nat) :=
    if counts.any fun (y, _) => same y x then
      counts.map fun (y, n) => if same y x then (y, n + 1) else (y, n)
    else counts ++ [(x, 1)]
  xs.foldl bump []

/-- By falling count; equal counts keep their order. -/
def ranked {α : Type} (counts : List (α × Nat)) : List (α × Nat) :=
  counts.mergeSort fun a b => b.2 ≤ a.2

/-- A text up to its first blank. -/
def firstWord (s : String) : String := String.ofList (s.toList.takeWhile (· != ' '))

/-- How often each mnemonic was executed, the most frequent first. -/
def opcodeHistogram (t : Trace) : Except Failure (List (String × Nat)) := do
  let words ← (← valuesOf "mnemonic" t.history).mapM fun
    | .text s => .ok (firstWord s)
    | _ => .error .lacking
  return ranked (tally (· == ·) words)

/-- The addresses executed most often, at most `limit` of them. -/
def hotAddresses (t : Trace) (limit : Option Int) : Except Failure (List (Datum × Nat)) := do
  let addresses ← valuesOf "pc" t.history
  if addresses.all Datum.isKey then
    let all := ranked (tally Datum.same addresses)
    return match limit with
      | none => all
      | some n => all.take n.toNat
  else throw .wrongKind

def defaultHotLimit : Int := 10

/-! ### Statistics -/

/-- Names in rising order, if they can be ordered. -/
def sortNames (names : List Datum) : Except Failure (List Datum) :=
  if names.length < 2 || names.all (fun d => d matches .text _) ||
      names.all (fun d => d.amount?.isSome) then
    .ok (names.mergeSort fun a b => !((b.less a).toOption.getD false))
  else .error .wrongKind

structure Statistics where
  total : Nat
  cycles : Datum
  size : Nat
  limit : Option Nat
  names : List Datum

/-- The cycles from the first recorded one to the last.  When time has passed meanwhile they have a
rate, and what is beyond every float is refused. -/
def cyclesCovered (t : Trace) (elapsed : Number) : Except Failure Datum :=
  match t.startCycle, t.currentCycle with
  | .null, _ | _, .null => .ok (.int 0)
  | start, current => do
    let covered ← current.difference start
    if Number.lt (.int 0) elapsed && (covered.amount?.bind Number.toFloat?).isNone then
      throw .beyondRange
    return covered

/-- The statistics when some time has passed since the trace was begun. -/
def statistics (t : Trace) (elapsed : Number) : Except Failure Statistics := do
  let cycles ← t.cyclesCovered elapsed
  return { total := t.total, cycles, size := t.size, limit := t.limit,
           names := ← sortNames t.names }

/-- What the clock says when a trace is asked: the time since it was begun, and the fields that tell
of it. -/
structure Clock where
  elapsed : Number := .int 1
  fields : List (String × Datum) := []

/-- What stands for the clock where time passes but does not count. -/
def noTime : Clock where
  fields := [("elapsed_time", .int 0), ("cycles_per_second", .int 0)]

/-- The statistics as data, with what the clock tells. -/
def Statistics.toDatum (s : Statistics) (clock : Clock) : Datum :=
  let timeOf (name : String) := clock.fields.filter (·.1 == name)
  .record ([("total_records", .int s.total)] ++ timeOf "elapsed_time" ++
    [("total_cycles", s.cycles)] ++ timeOf "cycles_per_second" ++
    [("current_history_size", .int s.size),
      ("max_history_size", (s.limit.map fun n => Datum.int n).getD .null),
      ("unique_registers", .list s.names)])

end ChipEight.Trace
