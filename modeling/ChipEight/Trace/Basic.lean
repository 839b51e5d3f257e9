import ChipEight.Datum
import ChipEight.Journal
/-!
The trace: a bounded history of snapshots, one for each executed instruction, with statistics over
everything that was ever recorded.  A snapshot is a mapping with the entries `cycle`, `pc`,
`opcode`, `mnemonic` and `registers`, of which any may be missing.
-/

namespace ChipEight

structure Trace where
  /-- How many snapshots are kept; the oldest go first. -/
  limit : Option Nat
  /-- The names of the registers to keep; all if there is no list. -/
  filter : Option (List String)
  history : List Datum := []
  /-- How many snapshots were recorded, dropped ones included. -/
  total : Nat := 0
  startCycle : Datum := .null
  currentCycle : Datum := .null
  /-- The names of the registers seen, in the order of their coming. -/
  names : List Datum := []
  deriving Repr, Inhabited

/-- The last items of a list, at most as many as the limit allows. -/
def keepLast {α : Type} (limit : Option Nat) (xs : List α) : List α :=
  match limit with
  | none => xs
  | some n => xs.drop (xs.length - n)

namespace Trace

def defaultLimit : Int := 100000

/-- The formats that a trace can be saved in. -/
def formats : List String := ["json", "csv"]

def create (limit : Option Int) (filter : Option (List String)) : Except Failure Trace :=
  match limit with
  | none => .ok { limit := none, filter }
  | some n =>
    if n < -Number.wordLimit || Number.wordLimit ≤ n then .error .beyondRange
    else if n < 0 then .error (.badValue .negativeCapacity)
    else .ok { limit := n.toNat, filter }

def createNotes (limit : Option Int) : List Record :=
  let size := (limit.map toString).getD "None"
  [⟨.info, .recorder, "Initialized state recorder with max history " ++ size⟩]

def size (t : Trace) : Nat := t.history.length

/-- A snapshot with only the registers that the filter names. -/
def restrict (filter : Option (List String)) (snapshot : Datum) : Except Failure Datum :=
  match filter with
  | none => .ok snapshot
  | some names => do
    if ← snapshot.contains "registers" then
      let entries ← snapshot.toEntries
      let registers := (Datum.lookup (.text "registers") entries).getD .null
      match registers with
      | .dict rs =>
        let kept := rs.filter fun (name, _) => names.any fun n => name.same (.text n)
        return .dict (Datum.insert (.text "registers") (.dict kept) entries)
      | _ => throw .lacking
    else return snapshot

/-- The names in both lists, each once. -/
def mergeNames (names more : List Datum) : List Datum :=
  more.foldl (fun names n => if names.any (·.same n) then names else names ++ [n]) names

/-- The trace after the snapshot's cycle was looked at. -/
def noteCycle (t : Trace) (snapshot : Datum) : Except Failure Trace := do
  if ← snapshot.contains "cycle" then
    let cycle ← snapshot.index "cycle"
    return { t with
      startCycle := match t.startCycle with
        | .null => cycle
        | known => known
      currentCycle := cycle }
  else return t

/-- The trace after the names of the snapshot's registers were looked at. -/
def noteNames (t : Trace) (snapshot : Datum) : Except Failure Trace := do
  if ← snapshot.contains "registers" then
    match ← snapshot.index "registers" with
    | .dict rs => return { t with names := mergeNames t.names (rs.map Prod.fst) }
    | _ => throw .lacking
  else return t

/-- Records a snapshot.  One that cannot be looked at is counted as far as that went, but not
kept. -/
def add (t : Trace) (snapshot : Datum) : Trace × Except Failure Unit :=
  match restrict t.filter snapshot with
  | .error e => (t, .error e)
  | .ok snapshot =>
    let t := { t with total := t.total + 1 }
    match t.noteCycle snapshot with
    | .error e => (t, .error e)
    | .ok t =>
      match t.noteNames snapshot with
      | .error e => (t, .error e)
      | .ok t => ({ t with history := keepLast t.limit (t.history ++ [snapshot]) }, .ok ())

/-- Records snapshots one after the other, up to the first that cannot be. -/
def addAll (t : Trace) : List Datum → Trace × Except Failure Unit
  | [] => (t, .ok ())
  | s :: rest =>
    match t.add s with
    | (t, .ok ()) => t.addAll rest
    | (t, .error e) => (t, .error e)

def clear (t : Trace) : Trace :=
  { t with history := [], total := 0, startCycle := .null, currentCycle := .null, names := [] }

end Trace
end ChipEight
