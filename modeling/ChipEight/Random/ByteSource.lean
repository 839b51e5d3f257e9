import ChipEight.Random.Twister
/-!
Where the machine's random bytes come from: a list given beforehand or a seeded generator.  A machine
without a seed draws from whatever source it is given.
-/

namespace ChipEight

inductive ByteSource where
  /-- The listed bytes, then zeros. -/
  | listed (bytes : List UInt8)
  | seeded (generator : Random.Twister)
  deriving DecidableEq, Repr, Inhabited

namespace ByteSource

/-- The source of a seed, or the one that stands in where there is no seed. -/
def ofSeed? (unseeded : ByteSource) : Option Int → ByteSource
  | some seed => .seeded (.ofSeed seed)
  | none => unseeded

/-- Takes the next byte. -/
def draw : ByteSource → UInt8 × ByteSource
  | listed [] => (0, listed [])
  | listed (b :: rest) => (b, listed rest)
  | seeded g => let (b, g) := g.nextByte; (b, seeded g)

end ByteSource
end ChipEight
