import ChipEight.Checksum
import ChipEight.Picture.Basic
/-!
Pictures as PNG files: one stream of rows in true color, stored without compression.
-/

namespace ChipEight.Picture

/-- A number in four bytes, the highest first. -/
def word (n : Nat) : List UInt8 :=
  [UInt8.ofNat (n >>> 24), UInt8.ofNat (n >>> 16), UInt8.ofNat (n >>> 8), UInt8.ofNat n]

/-- One byte of the cyclic redundancy check of a chunk. -/
def crcStep (crc : UInt32) (byte : UInt8) : UInt32 :=
  (List.range 8).foldl (fun c _ => if c &&& 1 == 1 then (c >>> 1) ^^^ 0xedb88320 else c >>> 1)
    (crc ^^^ byte.toUInt32)

def crc (bytes : List UInt8) : Nat := (bytes.foldl crcStep 0xffffffff ^^^ 0xffffffff).toNat

/-- A chunk: length, name, content and check. -/
def chunk (name : String) (content : List UInt8) : List UInt8 :=
  let named := name.toUTF8.toList ++ content
  word content.length ++ named ++ word (crc named)

/-- The longest piece that is stored as one block. -/
def blockLimit : Nat := 65535

/-- Bytes in stored blocks, of which the last is marked. -/
def storedBlocks : Nat → List UInt8 → List UInt8
  | 0, _ => []
  | fuel + 1, bytes =>
    let piece := bytes.take blockLimit
    let rest := bytes.drop blockLimit
    let n := piece.length
    let size := [UInt8.ofNat n, UInt8.ofNat (n / 256)]
    (if rest.isEmpty then 1 else 0) :: size ++ size.map (~~~ ·) ++ piece ++
      if rest.isEmpty then [] else storedBlocks fuel rest

def stream (bytes : List UInt8) : List UInt8 :=
  [0x78, 0x01] ++ storedBlocks (bytes.length / blockLimit + 1) bytes ++ word (adler32 bytes)

/-- The pixels row by row, each row behind its filter type. -/
def rowBytes (p : Picture) : List UInt8 :=
  (List.range p.height).flatMap fun y =>
    0 :: (List.range p.width).flatMap fun x =>
      let c := p.pixel x y
      [c.red, c.green, c.blue]

def signature : List UInt8 := [0x89, 0x50, 0x4e, 0x47, 0x0d, 0x0a, 0x1a, 0x0a]

/-- The bytes of the file. -/
def png (p : Picture) : List UInt8 :=
  signature ++ chunk "IHDR" (word p.width ++ word p.height ++ [8, 2, 0, 0, 0]) ++
    chunk "IDAT" (stream p.rowBytes) ++ chunk "IEND" []

end ChipEight.Picture
