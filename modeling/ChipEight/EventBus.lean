import ChipEight.Event
import ChipEight.Journal
import ChipEight.Window
/-!
The event bus.  Observers stand in lines, one for each event type and priority; an event visits the
lines of its type from the critical to the low one and stops behind the observer that consumes it.
A line is walked by position while it may change: an observer can let others in or out, publish
events of its own, or clear the history.

Observers are data.  A scripted one is known by its name, and the reaction with which the name first
came stays its reaction; every visit to it leaves a mark in the journal.
-/

namespace ChipEight

/-- What a scripted observer does with an event. -/
inductive Reaction where
  | watch
  | consume
  | fail
  | consumeAndFail
  /-- Lets another observer out of the lines of the event's type. -/
  | dismiss (name : String)
  /-- Lets another observer into a line of the event's type. -/
  | enlist (name : String) (priority : Priority) (reaction : Reaction)
  /-- Publishes an event of its own. -/
  | publish (type : EventType)
  | clearHistory
  deriving Repr, Inhabited

inductive Observer where
  | scripted (name : String)
  /-- Writes events into the journal. -/
  | reporter (serial : Nat) (level : Level)
  /-- Marks the type of each event. -/
  | watcher
  deriving DecidableEq, Repr

structure BusStats where
  triggered : Nat := 0
  handled : Nat := 0
  calls : Nat := 0
  deriving DecidableEq, Repr, Inhabited

/-- The observers of one type and priority, in the order in which they came. -/
structure Line where
  type : EventType
  priority : Priority
  observers : List Observer
  deriving DecidableEq, Repr

structure Bus where
  /-- In the order in which they were first needed. -/
  lines : List Line := []
  history : List Event := []
  limit : Int
  stats : BusStats := {}
  /-- The types that the history keeps; all when there are none. -/
  filter : List EventType := []
  /-- The reactions of the observers known by name. -/
  reactions : List (String × Reaction) := []
  reporters : Nat := 0
  deriving Repr, Inhabited

namespace Bus

/-- How many events a history keeps unless told otherwise. -/
def defaultLimit : Int := 100

def create (limit : Int) : Bus := { limit }

def createNotes : List Record := [⟨.debug, .events, "EventManager initialized"⟩]

/-! ### Lines -/

def line (b : Bus) (type : EventType) (priority : Priority) : List Observer :=
  match b.lines.find? fun l => l.type == type && l.priority == priority with
  | some l => l.observers
  | none => []

/-- Makes sure that there is a line of the type and priority. -/
def touch (b : Bus) (type : EventType) (priority : Priority) : Bus :=
  if b.lines.any fun l => l.type == type && l.priority == priority then b
  else { b with lines := b.lines ++ [⟨type, priority, []⟩] }

/-- Changes the line of a type and priority. -/
def amend (b : Bus) (type : EventType) (priority : Priority)
    (change : List Observer → List Observer) : Bus :=
  { b with lines := b.lines.map fun l =>
      if l.type == type && l.priority == priority then { l with observers := change l.observers }
      else l }

def enlist (b : Bus) (type : EventType) (observer : Observer) (priority : Priority) : Bus :=
  (b.touch type priority).amend type priority (· ++ [observer])

def enlistNotes (type : EventType) (priority : Priority) : List Record :=
  [⟨.debug, .events, s!"Registered handler for {type.name} with {priority.name} priority"⟩]

/-- Takes an observer out of the first line of the type that it stands in; says whether there was
one. -/
def dismiss (b : Bus) (type : EventType) (observer : Observer) : Bus × Bool :=
  match b.lines.find? fun l => l.type == type && l.observers.contains observer with
  | some l => (b.amend type l.priority (·.erase observer), true)
  | none => (b, false)

def dismissNotes (type : EventType) (found : Bool) : List Record :=
  if found then [⟨.debug, .events, s!"Unregistered handler for {type.name}"⟩] else []

def hasObservers (b : Bus) (type : EventType) : Bool :=
  b.lines.any fun l => l.type == type && !l.observers.isEmpty

def observerCount (b : Bus) : Nat := b.lines.foldl (fun n l => n + l.observers.length) 0

/-! ### Named observers -/

/-- Keeps the reaction with which a name first comes. -/
def learn (b : Bus) (name : String) (reaction : Reaction) : Bus :=
  if b.reactions.any (·.1 == name) then b
  else { b with reactions := b.reactions ++ [(name, reaction)] }

def reactionOf (b : Bus) (name : String) : Reaction := (b.reactions.lookup name).getD .watch

/-- Registers a scripted observer. -/
def enlistNamed (b : Bus) (j : Journal) (type : EventType) (name : String) (priority : Priority)
    (reaction : Reaction) : Bus × Journal :=
  ((b.learn name reaction).enlist type (.scripted name) priority,
    j.addAll (enlistNotes type priority))

def dismissNamed (b : Bus) (j : Journal) (type : EventType) (name : String) :
    Bus × Journal × Bool :=
  let (b, found) := (b.learn name .watch).dismiss type (.scripted name)
  (b, j.addAll (dismissNotes type found), found)

/-- Registers one observer that writes the events of several types into the journal. -/
def enlistReporter (b : Bus) (j : Journal) (types : List EventType) (level : Level) :
    Bus × Journal :=
  let observer := Observer.reporter b.reporters level
  (types.foldl (fun b type => b.enlist type observer .low) { b with reporters := b.reporters + 1 },
    types.foldl (fun j type => j.addAll (enlistNotes type .low)) j)

/-! ### History -/

/-- Counts an event and keeps it if the filter lets it pass. -/
def record (b : Bus) (e : Event) : Bus :=
  { b with
    stats := { b.stats with triggered := b.stats.triggered + 1 }
    history :=
      if b.filter.isEmpty || b.filter.contains e.type then retain b.limit (b.history ++ [e])
      else b.history }

def eventsOf (b : Bus) (type : Option EventType) : List Event :=
  match type with
  | none => b.history
  | some t => b.history.filter (·.type == t)

def setFilter (b : Bus) (types : List EventType) : Bus := { b with filter := types }

def setFilterNotes (types : List EventType) : List Record :=
  [⟨.debug, .events,
    "Set history filter to " ++ (Datum.list (types.map fun t => .text t.name)).literal⟩]

def clearHistory (b : Bus) : Bus := { b with history := [] }

def clearNotes : List Record := [⟨.debug, .events, "Cleared event history"⟩]

/-- The kept events, with one of them marked as consumed. -/
def markHandled (b : Bus) (serial : Nat) : Bus :=
  { b with history := b.history.map fun e =>
      if e.serial == serial then { e with handled := true } else e }

/-! ### Delivery -/

/-- How far an event has come. -/
structure Delivery where
  bus : Bus
  journal : Journal
  /-- An observer consumed the event. -/
  consumed : Bool := false
  /-- An observer took the event without failing. -/
  reached : Bool := false

namespace Delivery

/-- The observer took the event. -/
def taken (d : Delivery) : Delivery :=
  { d with
    reached := true
    bus := { d.bus with stats := { d.bus.stats with calls := d.bus.stats.calls + 1 } } }

def consume (d : Delivery) (event : Event) : Delivery :=
  { d with consumed := true, bus := d.bus.markHandled event.serial }

/-- The observer failed, which concerns nobody but the journal. -/
def failed (d : Delivery) (event : Event) (name : String) : Delivery :=
  { d with journal := d.journal.note .error .events fun _ =>
      s!"Error in event handler for {event.type.name}: boom {name}" }

def mark (d : Delivery) (text : String) : Delivery := { d with journal := d.journal.mark text }

end Delivery

/-- An event on its way: recorded, and sent along the lines of its type if there are any.  What was
consumed before stays consumed. -/
def triggerWith (run : Event → Delivery → Delivery) (b : Bus) (j : Journal) (event : Event) :
    Event × Delivery :=
  let start : Delivery := { bus := b.record event, journal := j, consumed := event.handled }
  if b.lines.any (·.type == event.type) then
    let d := run event start
    let stats := d.bus.stats
    ({ event with handled := d.consumed },
      if d.reached then { d with bus := { d.bus with
        stats := { stats with handled := stats.handled + 1 } } }
      else d)
  else (event, start)

/-- The next new event of a bus. -/
def newEvent (b : Bus) (type : EventType) (source : String) (payload : Datum) : Event :=
  ⟨b.stats.triggered, type, source, Event.payloadOf payload, false⟩

/-- What a scripted observer does; `run` delivers the events that it publishes. -/
def react (run : Event → Delivery → Delivery) (event : Event) (name : String) (d : Delivery) :
    Reaction → Delivery
  | .watch => d.taken
  | .consume => (d.consume event).taken
  | .fail => d.failed event name
  | .consumeAndFail => (d.consume event).failed event name
  | .dismiss other =>
    let (bus, journal, _) := d.bus.dismissNamed d.journal event.type other
    { d with bus, journal }.taken
  | .enlist other priority reaction =>
    let (bus, journal) := d.bus.enlistNamed d.journal event.type other priority reaction
    { d with bus, journal }.taken
  | .publish type =>
    let (_, inner) := triggerWith run d.bus d.journal (d.bus.newEvent type name .null)
    { d with bus := inner.bus, journal := inner.journal }.taken
  | .clearHistory =>
    { d with bus := d.bus.clearHistory, journal := d.journal.addAll clearNotes }.taken

/-- One observer's turn. -/
def visit (run : Event → Delivery → Delivery) (event : Event) (d : Delivery) : Observer → Delivery
  | .scripted name =>
    react run event name (d.mark (name ++ ":" ++ event.type.name)) (d.bus.reactionOf name)
  | .reporter _ level =>
    { d with journal := d.journal.note level .events fun _ => "Event: " ++ event.text }.taken
  | .watcher => (d.mark event.type.name).taken

/-- Sends an event along the rest of its lines, from a position in the first of them.  At the end of a
line, as behind each observer, an event that is consumed stops; one that came consumed gets no
further than the first line. -/
def deliver : Nat → List Priority → Nat → Event → Delivery → Delivery
  | 0, _, _, _, d => d
  | _ + 1, [], _, _, d => d
  | fuel + 1, priority :: rest, position, event, d =>
    let d := { d with bus := d.bus.touch event.type priority }
    match (d.bus.line event.type priority)[position]? with
    | none => if d.consumed then d else deliver fuel rest 0 event d
    | some observer =>
      let d := visit (deliver fuel Priority.callOrder 0) event d observer
      if d.consumed then d else deliver fuel (priority :: rest) (position + 1) event d

/-- How many turns observers can add to a delivery by what they do to the bus. -/
def patience : Nat := 2000

/-- Sends an event along its lines; the delivery says what has become of it. -/
def trigger (b : Bus) (j : Journal) (event : Event) : Event × Delivery :=
  triggerWith (deliver (b.observerCount + Priority.callOrder.length + 1 + patience)
    Priority.callOrder 0) b j event

/-- Publishes a new event. -/
def send (b : Bus) (j : Journal) (type : EventType) (source : String) (payload : Datum) :
    Event × Delivery :=
  b.trigger j (b.newEvent type source payload)

/-- Publishes an event whose delivery nobody asks about. -/
def publish (b : Bus) (j : Journal) (type : EventType) (source : String) (payload : Datum) :
    Bus × Journal :=
  let (_, d) := b.send j type source payload
  (d.bus, d.journal)

end Bus
end ChipEight
