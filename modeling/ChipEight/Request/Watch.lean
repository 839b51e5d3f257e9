import ChipEight.Request.Reply
import ChipEight.Trace.Storage
/-!
Requests to what observes a machine: the event bus, the error log and the trace.  A request to an
error log or a trace that is not attached fails.
-/

namespace ChipEight

open Running

inductive BusRequest where
  | enlist (type : EventType) (name : String) (priority : Option Priority) (reaction : Reaction)
  | dismiss (type : EventType) (name : String)
  /-- Publishes an event and asks how it reads. -/
  | create (type : EventType) (source : String) (payload : Datum)
  /-- Publishes an event and asks whether it was handled. -/
  | trigger (type : EventType) (source : String) (payload : Datum)
  | hasObservers (type : EventType)
  | history (type : Option EventType)
  | setFilter (types : List EventType)
  | report (types : List EventType) (level : Option Level)
  | stats
  | clear
  deriving Repr

def BusRequest.run (q : BusRequest) : Running Reply := do
  let o ← observers
  let put (bus : Bus) (journal : Journal) : Running Reply := do
    setObservers { o with bus, journal }
    return .none
  let send (type : EventType) (source : String) (payload : Datum) :
      Running (Event × Bus.Delivery) := do
    let (event, d) := o.bus.send o.journal type source payload
    setObservers { o with bus := d.bus, journal := d.journal }
    return (event, d)
  match q with
  | enlist type name priority reaction =>
    let (bus, journal) := o.bus.enlistNamed o.journal type name (priority.getD .normal) reaction
    put bus journal
  | dismiss type name =>
    let (bus, journal, found) := o.bus.dismissNamed o.journal type name
    setObservers { o with bus, journal }
    return .bool found
  | create type source payload =>
    let (event, _) ← send type source payload
    return .data (.list [event.describe, .text event.text])
  | trigger type source payload =>
    let (event, d) ← send type source payload
    return .data (.list [.bool d.reached, event.describe])
  | hasObservers type => return .bool (o.bus.hasObservers type)
  | history type => return .data (.list ((o.bus.eventsOf type).map Event.describe))
  | setFilter types => put (o.bus.setFilter types) (o.journal.addAll (Bus.setFilterNotes types))
  | report types level =>
    let (bus, journal) := o.bus.enlistReporter o.journal types (level.getD .info)
    put bus journal
  | stats => return .data o.bus.stats.describe
  | clear => put o.bus.clearHistory (o.journal.addAll Bus.clearNotes)

inductive ErrorRequest where
  | handle (report : ErrorLog.Report)
  | report (incident : Option Incident) (context : Datum)
  | warn (message : String) (category : Option Category) (context : Datum)
  | categoryOf (cause : Option Cause)
  | query (level : Option Level) (category : Option Category) (limit : Option Int)
  | summary
  | clear
  | register (category : Category) (callback : Callback)
  | unregister (category : Category)
  | boundary (name : String) (cause : Cause) (category : Option Category)
  | «export» (path : String)

def ErrorRequest.run (q : ErrorRequest) : Running Reply := do
  let o ← observers
  let some log := o.errors | throw .lacking
  let put (log : ErrorLog) (notes : List Record) (reply : Reply) : Running Reply := do
    setObservers { o with errors := some log, journal := o.journal.addAll notes }
    return reply
  let handled (result : ErrorLog × Journal × ErrorRecord) : Running Reply := do
    setObservers { o with errors := some result.1, journal := result.2.1 }
    return .data result.2.2.toDatum
  match q with
  | handle r => handled (log.handle o.journal r)
  | report (some incident) context => handled (log.report o.journal incident context)
  | report none context => handled (log.handle o.journal { context })
  | warn message category context => handled (log.warn o.journal message category context)
  | categoryOf cause => return .text ((cause.map Cause.category).getD .unknown).name
  | query level category limit =>
    return .data (.list ((log.query level category limit).map ErrorRecord.toDatum))
  | summary => return .data log.summary.toDatum
  | clear => put log.clear ErrorLog.clearNotes .none
  | register category callback =>
    put (log.register category callback) (ErrorLog.registerNotes category) .none
  | unregister category =>
    let (log, found) := log.unregister category
    put log (ErrorLog.unregisterNotes category found) (.bool found)
  | boundary name cause category =>
    handled (log.reportBoundary o.journal name "host" cause category)
  | «export» path =>
    let (files, journal, done) := log.export (← get).files o.journal path
    modify fun h => { h with files }
    setObservers { o with journal }
    let told ← if done then ofExcept (ErrorLog.readReport files path) else pure []
    return .data (.list (.bool done :: told))

inductive TraceRequest where
  | record (snapshot : Datum)
  | states (start stop : Option Int)
  | nearest (cycle : Datum)
  | history (name : String)
  | array (name : String)
  | changes (name : String) (start stop : Datum)
  | histogram
  | hotAddresses (limit : Option Int)
  | statistics
  | clear
  | save (path format : String)
  | load (path : String)
  deriving Repr

def TraceRequest.run (q : TraceRequest) : Running Reply := do
  let o ← observers
  let some t := o.trace | throw .lacking
  match q with
  | record snapshot =>
    let (trace, result) := t.add snapshot
    setObservers { o with trace := some trace }
    ofExcept result
    return .none
  | states start stop => return .data (.list (t.states start stop))
  | nearest cycle =>
    let found ← ofExcept (t.nearest cycle)
    note (Trace.nearestNotes cycle found)
    return .data (found.1.getD .null)
  | history name =>
    let found ← ofExcept (t.registerHistory name)
    return .data (.record [
      ("cycles", .list (found.map Prod.fst)), ("values", .list (found.map Prod.snd))])
  | array name =>
    let (cycles, values) ← ofExcept (t.registerArray name)
    return .table [cycles, values]
  | changes name start stop => return .data (.list (← ofExcept (t.changes name start stop)))
  | histogram =>
    return .data (.list ((← ofExcept t.opcodeHistogram).map fun (word, n) =>
      .list [.text word, .int n]))
  | hotAddresses limit =>
    return .data (.list ((← ofExcept (t.hotAddresses limit)).map fun (pc, n) =>
      .record [("pc", pc), ("count", .int n)]))
  | statistics =>
    let clock : Trace.Clock := {}
    return .data ((← ofExcept (t.statistics clock.elapsed)).toDatum clock)
  | clear =>
    setObservers { o with trace := some t.clear }
    return .none
  | save path format =>
    let (files, journal, result) := t.save (← get).files o.journal path format Trace.noTime
    modify fun h => { h with files }
    setObservers { o with journal }
    return .bool (← ofExcept result)
  | load path =>
    let (trace, journal, result) := t.load (← get).files o.journal path
    setObservers { o with trace := some trace, journal }
    return .bool (← ofExcept result)

end ChipEight
