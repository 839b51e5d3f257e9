/-!
The Mersenne Twister with a period of `2^19937 - 1`: 624 words of state, refilled all at once, and
a tempered word for each call.
-/

namespace ChipEight.Random

def stateSize : Nat := 624

structure Twister where
  words : Array UInt32
  position : Nat
  deriving DecidableEq, Repr, Inhabited

namespace Twister

/-- A state spread from one word by a linear recurrence. -/
def spread (seed : UInt32) : Array UInt32 :=
  (List.range (stateSize - 1)).foldl
    (fun (words : Array UInt32) i =>
      let previous := words.getD i 0
      words.push ((previous ^^^ (previous >>> 30)) * 1812433253 + UInt32.ofNat (i + 1)))
    #[seed]

/-- A position in the state and in the key while the state is stirred. -/
structure Stir where
  words : Array UInt32
  i : Nat
  j : Nat

def Stir.mixed (s : Stir) (factor : UInt32) : UInt32 :=
  let previous : UInt32 := s.words.getD (s.i - 1) 0
  s.words.getD s.i 0 ^^^ ((previous ^^^ (previous >>> 30)) * factor)

/-- Writes a word at the current place and goes on; behind the last word the first is set again. -/
def Stir.put (s : Stir) (word : UInt32) (j : Nat) : Stir :=
  let words := s.words.setIfInBounds s.i word
  if stateSize ≤ s.i + 1 then ⟨words.setIfInBounds 0 word, 1, j⟩ else ⟨words, s.i + 1, j⟩

/-- Stirs the words of a key into a state, then the positions alone. -/
def ofKey (key : List UInt32) : Twister :=
  let key := key.toArray
  let withKey := (List.range (max stateSize key.size)).foldl
    (fun s _ =>
      s.put (s.mixed 1664525 + key.getD s.j 0 + UInt32.ofNat s.j) ((s.j + 1) % key.size))
    (⟨spread 19650218, 1, 0⟩ : Stir)
  let done := (List.range (stateSize - 1)).foldl
    (fun s _ => s.put (s.mixed 1566083941 - UInt32.ofNat s.i) s.j) withKey
  ⟨done.words.setIfInBounds 0 0x80000000, stateSize⟩

/-- The 32-bit words of a number, the lowest first; zero has one word. -/
def keyWords (n : Nat) : List UInt32 :=
  (List.range (n.log2 / 32 + 1)).map fun i => UInt32.ofNat (n >>> (32 * i))

/-- The state for an integer seed; the sign does not count. -/
def ofSeed (seed : Int) : Twister := ofKey (keyWords seed.natAbs)

def refill (words : Array UInt32) : Array UInt32 :=
  (List.range stateSize).foldl
    (fun words k =>
      let y := (words.getD k 0 &&& 0x80000000) |||
        (words.getD ((k + 1) % stateSize) 0 &&& 0x7FFFFFFF)
      let twist : UInt32 := if y &&& 1 == 0 then 0 else 0x9908B0DF
      words.setIfInBounds k (words.getD ((k + 397) % stateSize) 0 ^^^ (y >>> 1) ^^^ twist))
    words

def temper (y : UInt32) : UInt32 :=
  let y := y ^^^ (y >>> 11)
  let y := y ^^^ ((y <<< 7) &&& 0x9D2C5680)
  let y := y ^^^ ((y <<< 15) &&& 0xEFC60000)
  y ^^^ (y >>> 18)

/-- The next 32-bit word. -/
def next (t : Twister) : UInt32 × Twister :=
  let (words, position) :=
    if stateSize ≤ t.position then (refill t.words, 0) else (t.words, t.position)
  (temper (words.getD position 0), ⟨words, position + 1⟩)

/-- Draws words until the highest nine bits of one are below 256, at most `tries` of them. -/
def nextByteWithin : Nat → Twister → UInt8 × Twister
  | 0, t => (0, t)
  | tries + 1, t =>
    let (u, t) := t.next
    let high := u >>> 23
    if high < 256 then (high.toUInt8, t) else nextByteWithin tries t

/-- A byte, each value equally likely.  One word in two gives one; no run of words without is
anywhere near as long as the bound. -/
def nextByte (t : Twister) : UInt8 × Twister := nextByteWithin 20000 t

end Twister
end ChipEight.Random
