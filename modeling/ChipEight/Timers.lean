import ChipEight.Failure
import ChipEight.Journal
/-!
The delay and sound timers: bytes that count down at a fixed rate of time.  Elapsed time is
collected and paid out in whole ticks; the rest is carried over.
-/

namespace ChipEight

def defaultTimerRate : Nat := 60

structure Timers where
  rate : Number
  /-- Seconds per tick. -/
  interval : Float
  delay : UInt8
  sound : UInt8
  /-- Time that has not made a whole tick yet. -/
  carried : Float
  /-- The sound timer has run out and nobody has asked since. -/
  toneEnded : Bool
  ticks : Nat
  deriving Repr, Inhabited

namespace Timers

def create (rate : Number) : Except Failure Timers :=
  if rate.le (.int 0) then .error (.badValue (.timerRate rate))
  else
    match rate.toFloat? with
    | none => .error .beyondRange
    | some r => .ok ⟨rate, 1.0 / r, 0, 0, 0.0, false, 0⟩

def createNotes (t : Timers) : List Record :=
  [⟨.info, .timers, s!"Timers initialized at {t.rate.text} Hz"⟩]

def toneActive (t : Timers) : Bool := 0 < t.sound

def setDelay (t : Timers) (value : Int) : Timers :=
  { t with delay := UInt8.ofNat (value % 256).toNat }

def setSound (t : Timers) (value : Int) : Timers :=
  { t with sound := UInt8.ofNat (value % 256).toNat }

/-- One tick: each timer above zero goes down by one. -/
def tick (t : Timers) : Timers :=
  { t with
    ticks := t.ticks + 1
    delay := if 0 < t.delay then t.delay - 1 else 0
    sound := if 0 < t.sound then t.sound - 1 else 0
    toneEnded := t.toneEnded || t.sound == 1 }

/-- Whether the next tick ends the tone. -/
def endsTone (t : Timers) : Bool := t.sound == 1

def tickMany : Nat → Timers → Timers
  | 0, t => t
  | n + 1, t => tickMany n t.tick

/-- How many whole ticks a time holds. -/
def wholeTicks (carried interval : Float) : Except Failure Int :=
  if interval == 0.0 then .error .divisionByZero
  else
    let quotient := Number.floorQuotient carried interval
    match Number.truncate? quotient with
    | some n => .ok n
    | none => .error (if quotient.isNaN then .badValue .notANumber else .beyondRange)

/-- Lets time pass.  What was collected before a refusal stays collected. -/
def update (t : Timers) (elapsed : Number) : Timers × Except Failure Int :=
  if elapsed.lt (.int 0) then (t, .error (.badValue (.elapsed elapsed)))
  else
    match elapsed.toFloat? with
    | none => (t, .error .beyondRange)
    | some seconds =>
      let collected := { t with carried := t.carried + seconds }
      match wholeTicks collected.carried t.interval with
      | .error e => (collected, .error e)
      | .ok ticks =>
        match Number.floatOfInt? ticks with
        | none => (collected, .error .beyondRange)
        | some paid =>
          (tickMany ticks.toNat { collected with carried := collected.carried - paid * t.interval },
            .ok ticks)

/-- Whether the tone has ended since the last time this was asked. -/
def consumeToneEnd (t : Timers) : Bool × Timers := (t.toneEnded, { t with toneEnded := false })

def reset (t : Timers) : Timers :=
  { t with delay := 0, sound := 0, carried := 0.0, toneEnded := false, ticks := 0 }

def expiredNote : Record := ⟨.debug, .timers, "Sound timer expired"⟩

/-- What `ticks` ticks report. -/
def tickNotes (t : Timers) (ticks : Int) : List Record :=
  if 0 < t.sound && (t.sound.toNat : Int) ≤ ticks then [expiredNote] else []

end Timers
end ChipEight
