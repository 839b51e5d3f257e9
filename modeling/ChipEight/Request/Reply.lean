import ChipEight.Config.Shared
import ChipEight.Describe
/-!
What a host gets back from a request, and how requests run: on a system that they change, with a
failure in place of the reply.  What was changed before a failure stays changed.
-/

namespace ChipEight

inductive Reply where
  | data (d : Datum)
  | bytes (bs : List UInt8)
  | reports (rs : Array StepReport)
  /-- Rows of words, all of one length. -/
  | table (rows : List (List Int))
  deriving Inhabited

namespace Reply

def none : Reply := data .null
def bool (b : Bool) : Reply := data (.bool b)
def int (i : Int) : Reply := data (.int i)
def text (s : String) : Reply := data (.text s)

end Reply

/-- A system, the configuration that is worked on, and the files of their host. -/
structure Host where
  system : System
  files : Files
  config : SharedConfig := Config.default
  deriving Inhabited

abbrev Running := ExceptT Failure (StateM Host)

namespace Running

def ofFault {α : Type} : Except Fault α → Running α
  | .ok a => pure a
  | .error f => throw (.fault f)

def system : Running System := return (← get).system

def modifySystem (change : System → System) : Running Unit :=
  modify fun h => { h with system := change h.system }

def machine : Running Machine := return (← system).machine

def setMachine (m : Machine) : Running Unit := modifySystem fun s => { s with machine := m }

def note (records : List Record) : Running Unit := modifySystem (·.addNotes records)

def observers : Running Observers := return (← system).observers

def setObservers (o : Observers) : Running Unit := modifySystem fun s => { s with observers := o }

def config : Running SharedConfig := return (← get).config

def setConfig (c : SharedConfig) : Running Unit := modify fun h => { h with config := c }

def files : Running Files := return (← get).files

def setFiles (fs : Files) : Running Unit := modify fun h => { h with files := fs }

/-- Runs an operation of the system. -/
def onSystem {α : Type} (run : System → System × Except Failure α) : Running α := do
  let (s, result) := run (← system)
  modifySystem fun _ => s
  ofExcept result

end Running
end ChipEight
