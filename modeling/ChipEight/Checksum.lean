/-!
Adler-32: two running sums modulo 65521, of the bytes and of the first sum.
-/

namespace ChipEight

def adlerModulus : Nat := 65521

/-- The checksum of bytes, the second sum in the upper half. -/
def adler32 (bytes : List UInt8) : Nat :=
  let (a, b) := bytes.foldl (fun (a, b) byte =>
    let a := (a + byte.toNat) % adlerModulus
    (a, (b + a) % adlerModulus)) (1, 0)
  b * 65536 + a

end ChipEight
