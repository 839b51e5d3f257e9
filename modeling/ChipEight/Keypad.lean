import ChipEight.Failure
import ChipEight.Journal
/-!
The hexadecimal keypad and the wait for a key.  A wait takes only a key that goes from released to
pressed while the wait is open; the first such key is latched until the wait asks for it.
-/

namespace ChipEight

abbrev Key := Fin 16

def keyCount : Nat := 16

inductive WaitState where
  | idle
  | awaiting
  deriving DecidableEq, Repr, Inhabited

def WaitState.name : WaitState → String
  | idle => "IDLE"
  | awaiting => "AWAITING_KEY"

structure Keypad where
  keys : Vector Bool 16
  latched : Option Key
  state : WaitState
  deriving DecidableEq, Repr

namespace Keypad

def fresh : Keypad := ⟨Vector.replicate 16 false, none, .idle⟩

instance : Inhabited Keypad := ⟨fresh⟩

def key? (key : Int) : Except Failure Key :=
  if h : 0 ≤ key ∧ key < 16 then .ok ⟨key.toNat, by omega⟩
  else .error (.badValue (.keyIndex (.int key)))

def isDown (k : Keypad) (key : Key) : Bool := k.keys[key]

/-- Presses a key.  A key that was down already leaves everything as it is. -/
def pressKey (k : Keypad) (key : Key) : Keypad :=
  if k.isDown key then k
  else
    { k with
      keys := k.keys.set key true
      latched := if k.state = .awaiting ∧ k.latched = none then some key else k.latched }

def releaseKey (k : Keypad) (key : Key) : Keypad := { k with keys := k.keys.set key false }

def setKey (k : Keypad) (key : Key) (down : Bool) : Keypad :=
  if down then k.pressKey key else k.releaseKey key

def press (k : Keypad) (key : Int) : Except Failure Keypad := (key? key).map k.pressKey

def release (k : Keypad) (key : Int) : Except Failure Keypad := (key? key).map k.releaseKey

/-- Brings the keys one after the other, from the lowest, into the given states. -/
def setFrom (k : Keypad) : Nat → List Bool → Keypad
  | _, [] => k
  | i, down :: rest => setFrom (k.setKey (Fin.ofNat 16 i) down) (i + 1) rest

def setKeys (k : Keypad) (states : List Bool) : Except Failure Keypad :=
  if states.length = 16 then .ok (k.setFrom 0 states)
  else .error (.badValue (.keyCount states.length))

/-- Only the low four bits of the number count. -/
def isPressed (k : Keypad) (number : Int) : Bool :=
  k.isDown (Fin.ofNat 16 (number % 16).toNat)

/-- Asks for the key of a wait.  A latched key is handed out and ends the wait; without one the
wait opens or goes on. -/
def waitForKey (k : Keypad) : Option Key × Keypad :=
  match k.latched with
  | some key => (some key, { k with latched := none, state := .idle })
  | none => (none, { k with state := .awaiting })

def pressed (k : Keypad) : List Key := (List.finRange 16).filter k.isDown

def changeNote (key : Key) (down : Bool) : Record :=
  ⟨.debug, .keypad, "Key " ++ hexText 1 key.val ++ (if down then " pressed" else " released")⟩

def setKeyNotes (k : Keypad) (key : Key) (down : Bool) : List Record :=
  if k.isDown key == down then [] else [changeNote key down]

/-- What a change of all keys reports: each key that changes, from the lowest. -/
def setKeysNotes (k : Keypad) (states : List Bool) : List Record :=
  if states.length = 16 then
    (List.finRange 16).flatMap fun key => k.setKeyNotes key (states.getD key.val false)
  else []

def waitNotes (k : Keypad) : List Record :=
  if k.latched.isNone && k.state == .idle then [⟨.debug, .keypad, "Waiting for key press"⟩]
  else []

end Keypad
end ChipEight
