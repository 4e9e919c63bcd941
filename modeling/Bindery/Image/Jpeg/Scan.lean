import Bindery.Image.Jpeg.Headers

/-!
# Scans of JPEG images

Scans are coded in bits, the high bit of each byte first.  In the bytes, `0xff` has to be
followed by zero to stand for itself; followed by another byte it is a marker, beyond which
nothing is read.  A `Stream` holds bits that are read ahead, and the marker that was met then.
A scan codes some components of the picture, in units of blocks.  `Headers.takeScan?` reads the
header of a scan, and `Scan.forUnits?` goes through the units with the restarts between them.
-/

namespace Bindery.Jpeg

open Binary

/-! ### Coded data -/

/-- A position in coded data. -/
structure Stream where
  /-- The bits that are read ahead. -/
  bits : Bits := []
  /-- The marker that follows them, if it has been met. -/
  marker : Option UInt8 := none
  /-- The bytes that follow. -/
  rest : Bytes
deriving DecidableEq, Repr

namespace Stream

/-- What is next in coded data. -/
inductive Item where
  | byte (b : UInt8)
  | marker (b : UInt8)
deriving DecidableEq, Repr

/-- What is next in the bytes, which are followed by zeros, and the bytes after it. -/
def item : Bytes → Item × Bytes
  | [] => (.byte 0, [])
  | b :: rest =>
    if b ≠ 0xff then (.byte b, rest)
    else match rest.dropWhile (· = 0xff) with
      | [] => (.byte 0xff, [])
      | m :: rest => if m = 0 then (.byte 0xff, rest) else (.marker m, rest)

/-- The bits of a byte, the high bit first. -/
def bitsOf (b : UInt8) : Bits :=
  (List.range 8).map fun i => b.toNat.testBit (7 - i)

/-- Reads so many bytes ahead, but not beyond a marker, which has to be known. -/
def readAhead? : Nat → Stream → Option Stream
  | 0, s => some s
  | count + 1, s =>
    match item s.rest with
    | (.byte b, rest) => readAhead? count { s with bits := s.bits ++ bitsOf b, rest }
    | (.marker m, rest) =>
      if Marker.isKnown m then some { s with marker := some m, rest } else none

/-- How many bits have to be there; if there are less, more bytes are read. -/
def least : Nat := 32

/-- Reads ahead if there are few bits. -/
def fill? (s : Stream) : Option Stream :=
  if least ≤ s.bits.length || s.marker.isSome then some s else readAhead? 4 s

/-- Reads a codeword. -/
def symbol? (code : PrefixCode) (s : Stream) : Option (Nat × Stream) := do
  let s ← s.fill?
  let (symbol, bits) ← code.read? s.bits
  return (symbol, { s with bits })

/-- The number of so many bits, the highest first; missing bits are zero. -/
def number : Nat → Stream → Nat × Stream
  | 0, s => (0, s)
  | width + 1, s =>
    let bit := (s.bits.headD false).toNat
    let (n, s) := number width { s with bits := s.bits.tail }
    (bit <<< width + n, s)

/-- Passes over so many bits. -/
def skip (count : Nat) (s : Stream) : Stream :=
  { s with bits := s.bits.drop count }

/-- The stream from the bytes on that have not been read. -/
def reset (s : Stream) : Stream :=
  { rest := s.rest }

/-- The next marker, which may have been met already, and what follows it. -/
def marker? (s : Stream) : Option (UInt8 × Bytes) :=
  match s.marker with
  | some m => some (m, s.rest)
  | none => Marker.next? 0 s.rest

end Stream

/-! ### Scans -/

/-- What is coded in a scan. -/
structure Scan where
  frame : Frame
  /-- The numbers of its components in the frame. -/
  members : List Nat
  /-- The first coefficient. -/
  first : Nat
  /-- The last coefficient. -/
  last : Nat
  /-- The bit of the coefficients that earlier scans have reached, or zero if there are none. -/
  high : Nat
  /-- The lowest bit of the coefficients that is coded. -/
  low : Nat
deriving DecidableEq, Repr

/-- Notes which codes the components of a scan use, and yields their numbers. -/
def Frame.select? (frame : Frame) : Nat → Bytes → Option (Frame × List Nat × Bytes)
  | 0, rest => some (frame, [], rest)
  | count + 1, name :: codes :: rest => do
    let i ← frame.components.findIdx? fun c => c.name == name
    let components := frame.components.modify i fun c =>
      { c with constant := codes.toNat / 16, varying := codes.toNat % 16 }
    let (frame, others, rest) ← select? { frame with components } count rest
    return (frame, i :: others, rest)
  | _, _ => none

/-- The names of so many components in a scan header. -/
def scanNames : Nat → Bytes → List UInt8
  | count + 1, name :: _ :: rest => name :: scanNames count rest
  | _, _ => []

/-- Reads the header of a scan, and yields what follows it. -/
def Headers.takeScan? (h : Headers) (bytes : Bytes) : Option (Headers × Scan × Bytes) := do
  let (segment, rest) ← segment? bytes
  let frame ← h.frame
  match segment with
  | count :: selection =>
    guard (1 ≤ count && count ≤ 4 && (scanNames count.toNat selection).Nodup)
    let (frame, members, range) ← frame.select? count.toNat selection
    match range with
    | [first, last, bits] =>
      let high := bits.toNat / 16
      let low := bits.toNat % 16
      guard (first ≤ 63 && last ≤ 63 && high ≤ 13 && low ≤ 13)
      let scan : Scan :=
        { frame, members, first := first.toNat, last := last.toNat, high, low }
      return ({ h with frame := some frame }, scan, rest)
    | _ => none
  | [] => none

namespace Scan

/-- The components of the scan. -/
def components (scan : Scan) : List Component :=
  scan.members.filterMap fun i => scan.frame.components[i]?

/-- The scan has all components of the frame. -/
def hasAll (scan : Scan) : Bool :=
  scan.members.length = scan.frame.components.length

/-- The number of parts of a size that a length has. -/
def partsOf (length size : Nat) : Nat :=
  (length + (size - 1)) / size

/-- The components of the blocks of a unit: a single component has one, several have as many as
they have in a unit of the frame. -/
def blocks (scan : Scan) : List Component :=
  match scan.components with
  | [c] => [c]
  | cs => cs.flatMap fun c => List.replicate (c.across * c.down) c

/-- The number of units. -/
def size (scan : Scan) : Nat :=
  let frame := scan.frame
  match scan.components with
  | [c] =>
    partsOf (partsOf (frame.width * c.across) frame.across) 8
      * partsOf (partsOf (frame.height * c.down) frame.down) 8
  | _ => partsOf frame.width (8 * frame.across) * partsOf frame.height (8 * frame.down)

/-- What comes of a restart. -/
inductive Restart where
  /-- The scan goes on with so many units up to the next restart. -/
  | continued (left : Nat) (s : Stream)
  | refused
deriving DecidableEq, Repr

/-- Counts a unit, after which a restart may be due: then the next marker has to be that of a
restart, or of the end. -/
def countUnit (interval left : Nat) (s : Stream) : Restart :=
  if interval = 0 then .continued 0 s
  else if 1 < left then .continued (left - 1) s
  else match s.marker? with
    | none => .refused
    | some (m, rest) =>
      match Marker.of m with
      | .restart => .continued interval { rest }
      | .finish => .continued interval { s with marker := some m, rest }
      | _ => .refused

end Scan

end Bindery.Jpeg
