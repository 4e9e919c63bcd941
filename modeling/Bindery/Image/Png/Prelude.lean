import Bindery.Binary.Number

/-!
# What comes before the data of PNG images

After a signature, an image is a sequence of chunks, each with a kind, data and a check sum.
`Chunk.readAll` reads the chunks as far as they are complete.  The first chunk of an image is its
header, and other chunks may follow before the data.  A `Prelude` is what has to be remembered of
them.  `Prelude.take?` takes in one more chunk and refuses those with which an image cannot be
decoded; most chunks that only describe an image may hold anything.
-/

namespace Bindery.Png

/-! ### Chunks -/

/-- A chunk of an image. -/
structure Chunk where
  /-- The four letters of its kind. -/
  kind : List Char
  data : Bytes
  /-- The check sum holds. -/
  isIntact : Bool
deriving DecidableEq, Repr

namespace Chunk

/-- A chunk without which the image cannot be decoded, which its first letter says. -/
def isCritical (c : Chunk) : Bool :=
  c.kind.head?.any fun letter => !letter.toNat.testBit 5

/-- The letters of a kind. -/
def letters (bytes : Bytes) : List Char :=
  bytes.map fun b => Char.ofNat b.toNat

/-- The kind of the chunk that begins here, even if its data are missing. -/
def nextKind? (bytes : Bytes) : Option (List Char) :=
  (Binary.field? bytes 4 4).map letters

/-- The chunk at the start of the bytes, and what follows it. -/
def read? (bytes : Bytes) : Option (Chunk × Bytes) := do
  let length := Binary.ofBig (← Binary.field? bytes 0 4)
  let kind ← Binary.field? bytes 4 4
  let data ← Binary.field? bytes 8 length
  let sum ← Binary.field? bytes (8 + length) 4
  let isIntact := (Binary.crc32 (kind ++ data)).toNat = Binary.ofBig sum
  return ({ kind := letters kind, data, isIntact }, bytes.drop (12 + length))

/-- The chunks up to the first that is not complete, and what follows them.  Every chunk has
twelve bytes at least, so the number of bytes bounds the number of chunks. -/
def readAll : Nat → Bytes → List Chunk × Bytes
  | 0, bytes => ([], bytes)
  | fuel + 1, bytes =>
    match read? bytes with
    | none => ([], bytes)
    | some (c, rest) =>
      let (cs, rest) := readAll fuel rest
      (c :: cs, rest)

end Chunk

/-! ### The header and what follows it -/

/-- What the header says. -/
structure Header where
  width : Nat
  height : Nat
  /-- The number of bits of a pixel. -/
  pixelBits : Nat
  /-- The number of bytes of a decoded pixel. -/
  decodedBytes : Nat
  /-- The pixels are numbers of palette entries. -/
  isIndexed : Bool
  /-- The rows come in seven passes. -/
  isInterlaced : Bool
deriving DecidableEq, Repr

namespace Header

/-- The number of values of a pixel, if the depth goes with the kind of colour. -/
def channels? (depth colour : Nat) : Option Nat :=
  match colour with
  | 0 => if [1, 2, 4, 8, 16].contains depth then some 1 else none
  | 2 => if [8, 16].contains depth then some 3 else none
  | 3 => if [1, 2, 4, 8].contains depth then some 1 else none
  | 4 => if [8, 16].contains depth then some 2 else none
  | 6 => if [8, 16].contains depth then some 4 else none
  | _ => none

/-- The header in a chunk. -/
def ofChunk? (c : Chunk) : Option Header := do
  guard (c.kind = ['I', 'H', 'D', 'R'] && c.isIntact)
  let width := Binary.ofBig (← Binary.field? c.data 0 4)
  let height := Binary.ofBig (← Binary.field? c.data 4 4)
  guard (width ≠ 0 && height ≠ 0)
  match c.data.drop 8 with
  | [depth, colour, compression, filter, interlace] =>
    guard (compression = 0 && filter = 0 && interlace ≤ 1)
    let channels ← channels? depth.toNat colour.toNat
    let isIndexed := colour = 3
    return { width, height
             pixelBits := channels * depth.toNat
             decodedBytes := if isIndexed then 3 else channels * ((depth.toNat + 7) / 8)
             isIndexed
             isInterlaced := interlace = 1 }
  | _ => none

/-- The greatest number of bytes of a decoded image. -/
def maxDecoded : Nat := 512 * 1024 * 1024

/-- The decoded image is not too large. -/
def fits (h : Header) : Bool :=
  h.width * h.height * h.decodedBytes ≤ maxDecoded

end Header

/-- What is remembered of the chunks before the data. -/
structure Prelude where
  header : Header
  hasPalette : Bool := false
  /-- The number of frames of an animation that have been announced. -/
  frames : Nat := 0
  /-- The kinds of the chunks that have described the colours and count only once. -/
  described : List (List Char) := []
deriving DecidableEq, Repr

namespace Prelude

/-- The most bytes of a palette. -/
def maxPalette : Nat := 768

/-- Takes in a palette. -/
def takePalette? (p : Prelude) (data : Bytes) : Option Prelude :=
  if !p.hasPalette && !data.isEmpty && data.length % 3 = 0 && data.length ≤ maxPalette then
    some { p with hasPalette := true }
  else none

/-- The announcement of a frame that has the given number and fills the picture. -/
def announces (p : Prelude) (data : Bytes) : Bool :=
  let number (offset width : Nat) : Option Nat :=
    (Binary.field? data offset width).map Binary.ofBig
  26 ≤ data.length && number 0 4 = some p.frames
    && number 4 4 = some p.header.width && number 8 4 = some p.header.height
    && number 12 4 = some 0 && number 16 4 = some 0
    && (number 24 1).any (· ≤ 2) && (number 25 1).any (· ≤ 1)

/-- Takes in a description of the colours, which counts unless it is too short. -/
def takeDescription? (p : Prelude) (c : Chunk) (length : Nat) (isRight : Bool) :
    Option Prelude :=
  if p.described.contains c.kind || c.data.length < length then some p
  else if c.data.length = length && isRight then
    some { p with described := c.kind :: p.described }
  else none

/-- The palette is known if the pixels refer to it. -/
def isComplete (p : Prelude) : Bool :=
  !p.header.isIndexed || p.hasPalette

/-- Takes in a chunk before the data. -/
def take? (p : Prelude) (c : Chunk) : Option Prelude :=
  if c.isCritical && !c.isIntact then none
  else match c.kind with
    | ['P', 'L', 'T', 'E'] => p.takePalette? c.data
    | ['a', 'c', 'T', 'L'] => if 8 ≤ c.data.length then some p else none
    | ['f', 'c', 'T', 'L'] =>
      if p.announces c.data then some { p with frames := p.frames + 1 } else none
    | ['c', 'I', 'C', 'P'] =>
      if p.hasPalette then some p
      else p.takeDescription? c 4 (c.data.getD 2 0 = 0 && c.data.getD 3 0 ≤ 1)
    | ['m', 'D', 'C', 'V'] => if p.hasPalette then some p else p.takeDescription? c 24 true
    | ['c', 'L', 'L', 'I'] => p.takeDescription? c 8 true
    | _ => if c.isCritical then none else some p

end Prelude

end Bindery.Png
