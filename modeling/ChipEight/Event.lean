import ChipEight.Datum
/-!
Events: what a running machine tells its host, with the part it comes from and a payload.
-/

namespace ChipEight

inductive EventType where
  | systemReset | programLoaded
  | cpuInstruction | unknownInstruction | keyWait
  | keyPress | keyRelease
  | displayClear | displayDraw
  | toneStart | toneEnd
  | custom
  deriving DecidableEq, Repr, Inhabited

namespace EventType

def all : List EventType :=
  [systemReset, programLoaded, cpuInstruction, unknownInstruction, keyWait, keyPress, keyRelease,
    displayClear, displayDraw, toneStart, toneEnd, custom]

def name : EventType → String
  | systemReset => "SYSTEM_RESET"
  | programLoaded => "PROGRAM_LOADED"
  | cpuInstruction => "CPU_INSTRUCTION"
  | unknownInstruction => "UNKNOWN_INSTRUCTION"
  | keyWait => "KEY_WAIT"
  | keyPress => "KEY_PRESS"
  | keyRelease => "KEY_RELEASE"
  | displayClear => "DISPLAY_CLEAR"
  | displayDraw => "DISPLAY_DRAW"
  | toneStart => "TONE_START"
  | toneEnd => "TONE_END"
  | custom => "CUSTOM"

def ofName? (s : String) : Option EventType := all.find? (·.name == s)

end EventType

/-- How early an observer is called. -/
inductive Priority where
  | low | normal | high | critical
  deriving DecidableEq, Repr, Inhabited

namespace Priority

/-- In the order in which observers are called. -/
def callOrder : List Priority := [critical, high, normal, low]

def name : Priority → String
  | low => "LOW"
  | normal => "NORMAL"
  | high => "HIGH"
  | critical => "CRITICAL"

def ofName? (s : String) : Option Priority := callOrder.find? (·.name == s)

end Priority

structure Event where
  /-- How many events were published before on the same bus. -/
  serial : Nat
  type : EventType
  source : String
  payload : Datum
  /-- An observer consumed the event. -/
  handled : Bool
  deriving Repr, Inhabited

namespace Event

/-- An event with nothing to tell has an empty payload. -/
def payloadOf (payload : Datum) : Datum := if payload.truthy then payload else .dict []

def text (e : Event) : String :=
  s!"Event({e.type.name}, source={e.source}, payload={e.payload.shown})"

end Event
end ChipEight
