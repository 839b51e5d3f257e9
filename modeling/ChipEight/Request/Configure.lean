import ChipEight.Config.Shared
import ChipEight.Request.Reply
/-!
Requests to a configuration.
-/

namespace ChipEight

open Running

inductive ConfigRequest where
  | get (key : String) (default : Datum)
  | set (key : String) (value : Datum)
  | reset (key : Option String)
  | validate (user : Datum)
  | loadDatum (user : Datum)
  | load (path : String)
  | save (path format : String)
  | machine
  | dump

/-- Takes over what loading gave: the configuration and the notes also where it failed. -/
def ConfigRequest.loaded {α : Type} (result : SharedConfig × List Record × Except Failure α) :
    Running α := do
  setConfig result.1
  note result.2.1
  ofExcept result.2.2

def ConfigRequest.run (q : ConfigRequest) : Running Reply := do
  let c ← config
  match q with
  | get key default => return .data (c.get key default)
  | set key value =>
    setConfig (c.set key value)
    note (Config.setNotes key value)
    return .none
  | reset none =>
    setConfig Config.default
    note Config.resetAllNotes
    return .none
  | reset (some key) =>
    let (c, done) ← ofExcept (c.reset key)
    setConfig c
    if done then note (Config.resetNotes key)
    return .none
  | validate user => return .data (.list ((← ofExcept (Config.validate user)).map Datum.text))
  | loadDatum user => return .bool (← loaded (c.loadDatum user))
  | load path => return .bool (← loaded (c.load (← files) path))
  | save path format =>
    let (fs, notes, done) := c.plain.save (← files) path format
    setFiles fs
    note notes
    return .bool done
  | machine => return .data (← ofExcept c.plain.machine)
  | dump => return .data c.plain.toDatum

end ChipEight
