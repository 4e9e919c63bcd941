import Bindery.Binary.Number
import Bindery.Binary.PrefixCode

/-!
# Headers of JPEG images

An image is a sequence of segments, each begun by a marker.  `Headers` is what the segments so
far have defined: the frame with its components, tables and codes.  `Headers.take?` takes in one
more segment, and `Headers.isReady` says whether everything is there that decoding needs.  Frames
of moving pictures leave out the codes that every decoder of them knows: those that the JPEG
standard gives as examples, one each for the constant and the varying parts of the luminance and
of the colours.
-/

namespace Bindery.Jpeg

open Binary

/-! ### Usual codes -/

/-- The code for constant parts of the luminance. -/
def constantLuminance : PrefixCode where
  counts := [0, 1, 5, 1, 1, 1, 1, 1, 1, 0, 0, 0, 0, 0, 0, 0]
  symbols := #[
    0x00, 0x01, 0x02, 0x03, 0x04, 0x05, 0x06, 0x07, 0x08, 0x09, 0x0a, 0x0b]

/-- The code for constant parts of the colours. -/
def constantColour : PrefixCode where
  counts := [0, 3, 1, 1, 1, 1, 1, 1, 1, 1, 1, 0, 0, 0, 0, 0]
  symbols := #[
    0x00, 0x01, 0x02, 0x03, 0x04, 0x05, 0x06, 0x07, 0x08, 0x09, 0x0a, 0x0b]

/-- The code for varying parts of the luminance. -/
def varyingLuminance : PrefixCode where
  counts := [0, 2, 1, 3, 3, 2, 4, 3, 5, 5, 4, 4, 0, 0, 1, 125]
  symbols := #[
    0x01, 0x02, 0x03, 0x00, 0x04, 0x11, 0x05, 0x12, 0x21, 0x31, 0x41, 0x06, 0x13, 0x51, 0x61,
    0x07, 0x22, 0x71, 0x14, 0x32, 0x81, 0x91, 0xa1, 0x08, 0x23, 0x42, 0xb1, 0xc1, 0x15, 0x52,
    0xd1, 0xf0, 0x24, 0x33, 0x62, 0x72, 0x82, 0x09, 0x0a, 0x16, 0x17, 0x18, 0x19, 0x1a, 0x25,
    0x26, 0x27, 0x28, 0x29, 0x2a, 0x34, 0x35, 0x36, 0x37, 0x38, 0x39, 0x3a, 0x43, 0x44, 0x45,
    0x46, 0x47, 0x48, 0x49, 0x4a, 0x53, 0x54, 0x55, 0x56, 0x57, 0x58, 0x59, 0x5a, 0x63, 0x64,
    0x65, 0x66, 0x67, 0x68, 0x69, 0x6a, 0x73, 0x74, 0x75, 0x76, 0x77, 0x78, 0x79, 0x7a, 0x83,
    0x84, 0x85, 0x86, 0x87, 0x88, 0x89, 0x8a, 0x92, 0x93, 0x94, 0x95, 0x96, 0x97, 0x98, 0x99,
    0x9a, 0xa2, 0xa3, 0xa4, 0xa5, 0xa6, 0xa7, 0xa8, 0xa9, 0xaa, 0xb2, 0xb3, 0xb4, 0xb5, 0xb6,
    0xb7, 0xb8, 0xb9, 0xba, 0xc2, 0xc3, 0xc4, 0xc5, 0xc6, 0xc7, 0xc8, 0xc9, 0xca, 0xd2, 0xd3,
    0xd4, 0xd5, 0xd6, 0xd7, 0xd8, 0xd9, 0xda, 0xe1, 0xe2, 0xe3, 0xe4, 0xe5, 0xe6, 0xe7, 0xe8,
    0xe9, 0xea, 0xf1, 0xf2, 0xf3, 0xf4, 0xf5, 0xf6, 0xf7, 0xf8, 0xf9, 0xfa]

/-- The code for varying parts of the colours. -/
def varyingColour : PrefixCode where
  counts := [0, 2, 1, 2, 4, 4, 3, 4, 7, 5, 4, 4, 0, 1, 2, 119]
  symbols := #[
    0x00, 0x01, 0x02, 0x03, 0x11, 0x04, 0x05, 0x21, 0x31, 0x06, 0x12, 0x41, 0x51, 0x07, 0x61,
    0x71, 0x13, 0x22, 0x32, 0x81, 0x08, 0x14, 0x42, 0x91, 0xa1, 0xb1, 0xc1, 0x09, 0x23, 0x33,
    0x52, 0xf0, 0x15, 0x62, 0x72, 0xd1, 0x0a, 0x16, 0x24, 0x34, 0xe1, 0x25, 0xf1, 0x17, 0x18,
    0x19, 0x1a, 0x26, 0x27, 0x28, 0x29, 0x2a, 0x35, 0x36, 0x37, 0x38, 0x39, 0x3a, 0x43, 0x44,
    0x45, 0x46, 0x47, 0x48, 0x49, 0x4a, 0x53, 0x54, 0x55, 0x56, 0x57, 0x58, 0x59, 0x5a, 0x63,
    0x64, 0x65, 0x66, 0x67, 0x68, 0x69, 0x6a, 0x73, 0x74, 0x75, 0x76, 0x77, 0x78, 0x79, 0x7a,
    0x82, 0x83, 0x84, 0x85, 0x86, 0x87, 0x88, 0x89, 0x8a, 0x92, 0x93, 0x94, 0x95, 0x96, 0x97,
    0x98, 0x99, 0x9a, 0xa2, 0xa3, 0xa4, 0xa5, 0xa6, 0xa7, 0xa8, 0xa9, 0xaa, 0xb2, 0xb3, 0xb4,
    0xb5, 0xb6, 0xb7, 0xb8, 0xb9, 0xba, 0xc2, 0xc3, 0xc4, 0xc5, 0xc6, 0xc7, 0xc8, 0xc9, 0xca,
    0xd2, 0xd3, 0xd4, 0xd5, 0xd6, 0xd7, 0xd8, 0xd9, 0xda, 0xe2, 0xe3, 0xe4, 0xe5, 0xe6, 0xe7,
    0xe8, 0xe9, 0xea, 0xf2, 0xf3, 0xf4, 0xf5, 0xf6, 0xf7, 0xf8, 0xf9, 0xfa]

/-! ### Markers -/

/-- What a marker begins. -/
inductive Marker where
  | frame (isProgressive : Bool)
  | quantizers
  | codes
  | interval
  | scan
  /-- A new start within a scan. -/
  | restart
  | finish
  /-- The segment of an application, by its number. -/
  | application (number : Nat)
  /-- A segment that is skipped. -/
  | other
  /-- A segment that cannot be decoded. -/
  | refused
deriving DecidableEq, Repr

namespace Marker

/-- The meaning of the byte of a marker. -/
def of (b : UInt8) : Marker :=
  if b = 0xc0 || b = 0xc1 then frame false
  else if b = 0xc2 then frame true
  else if b = 0xc4 then codes
  else if b = 0xcc || b = 0xdc then refused
  else if 0xd0 ≤ b && b ≤ 0xd7 then restart
  else if b = 0xd9 then finish
  else if b = 0xda then scan
  else if b = 0xdb then quantizers
  else if b = 0xdd then interval
  else if 0xe0 ≤ b && b ≤ 0xef then application (b.toNat - 0xe0)
  else other

/-- The byte is that of a marker with a known meaning, which alone may stand in coded data. -/
def isKnown (b : UInt8) : Bool :=
  (0xc0 ≤ b && b ≤ 0xc2) || b = 0xc4 || b = 0xcc || (0xd0 ≤ b && b ≤ 0xef) || b = 0xfe

/-- The next marker with a known meaning, and what follows it.  Bytes in front of it are passed
over, but no other marker. -/
def next? (last : UInt8) : Bytes → Option (UInt8 × Bytes)
  | [] => none
  | b :: rest =>
    if last ≠ 0xff || b = 0xff then next? b rest
    else if b = 0 then next? 0 rest
    else if isKnown b then some (b, rest) else none

end Marker

/-! ### Frames -/

/-- How the components of a picture stand for colours. -/
inductive Colours where
  | grey
  /-- Two components without a meaning. -/
  | pair
  /-- A luminance and two differences of colours. -/
  | luminance
  /-- Red, green and blue. -/
  | primaries
  /-- Cyan, magenta, yellow and black. -/
  | inks
  /-- A luminance, two differences of colours, and black. -/
  | inkLuminance
deriving DecidableEq, Repr

namespace Colours

/-- The number of components. -/
def count : Colours → Nat
  | grey => 1
  | pair => 2
  | luminance | primaries => 3
  | inks | inkLuminance => 4

/-- The number of bytes of a decoded pixel. -/
def decodedBytes : Colours → Nat
  | grey => 1
  | _ => 3

end Colours

/-- A component of the picture. -/
structure Component where
  name : UInt8
  /-- The number of blocks side by side in a unit. -/
  across : Nat
  /-- The number of blocks below each other in a unit. -/
  down : Nat
  /-- The number of its quantisation table. -/
  quantizer : Nat
  /-- The number of its code for constant parts. -/
  constant : Nat := 0
  /-- The number of its code for varying parts. -/
  varying : Nat := 0
deriving DecidableEq, Repr

/-- The frame of a picture. -/
structure Frame where
  isProgressive : Bool
  width : Nat
  height : Nat
  components : List Component
deriving DecidableEq, Repr

/-- The number of blocks side by side in a unit. -/
def Frame.across (frame : Frame) : Nat :=
  frame.components.foldl (fun n c => max n c.across) 1

/-- The number of blocks below each other in a unit. -/
def Frame.down (frame : Frame) : Nat :=
  frame.components.foldl (fun n c => max n c.down) 1

/-- What the segments so far have defined. -/
structure Headers where
  frame : Option Frame := none
  colours : Colours := .luminance
  /-- The numbers of the quantisation tables. -/
  quantizers : List Nat := []
  /-- The codes for constant parts, the latest first. -/
  constants : List (Nat × PrefixCode) := []
  /-- The codes for varying parts, the latest first. -/
  varyings : List (Nat × PrefixCode) := []
  /-- The number of units between two restarts, or zero. -/
  interval : Nat := 0
  /-- The frame is one of moving pictures. -/
  isMoving : Bool := false
deriving DecidableEq, Repr

namespace Headers

/-- The components in a frame header. -/
def components? : Nat → Bytes → Option (List Component)
  | 0, [] => some []
  | count + 1, name :: sampling :: quantizer :: rest => do
    let across := sampling.toNat / 16
    let down := sampling.toNat % 16
    guard (1 ≤ across && across ≤ 4 && 1 ≤ down && down ≤ 4 && quantizer < 4)
    return { name, across, down, quantizer := quantizer.toNat } :: (← components? count rest)
  | _, _ => none

/-- The colours of a frame with so many components. -/
def coloursOf (count : Nat) (announced : Colours) : Colours :=
  if count = 1 then .grey
  else if count = 2 then .pair
  else if count = 4 && announced = .luminance then .inks
  else announced

/-- Takes in a frame header. -/
def takeFrame? (h : Headers) (isProgressive : Bool) (segment : Bytes) : Option Headers := do
  guard h.frame.isNone
  match segment with
  | precision :: a :: b :: c :: d :: count :: rest =>
    let height := ofBig [a, b]
    let width := ofBig [c, d]
    guard (precision = 8 && height ≠ 0 && width ≠ 0 && 1 ≤ count && count ≤ 4)
    let components ← components? count.toNat rest
    return { h with
      frame := some { isProgressive, width, height, components }
      colours := coloursOf components.length h.colours }
  | _ => none

/-! ### Tables and codes -/

/-- Takes in quantisation tables.  Each takes a byte at least, so the number of bytes bounds
their number. -/
def takeQuantizers? : Nat → Headers → Bytes → Option Headers
  | _, h, [] => some h
  | 0, _, _ => none
  | fuel + 1, h, info :: rest => do
    let wide := info.toNat / 16
    let number := info.toNat % 16
    let size := 64 * (wide + 1)
    guard (wide ≤ 1 && number < 4 && size ≤ rest.length)
    takeQuantizers? fuel { h with quantizers := number :: h.quantizers } (rest.drop size)

/-- The codewords of each length, beginning with the given one, do not run out, and none
consists of ones only. -/
def fits (first : Nat) (length : Nat) : List Nat → Bool
  | [] => true
  | count :: counts =>
    (count = 0 || first + count < 1 <<< length) && fits (2 * (first + count)) (length + 1) counts

/-- Takes in codes.  Each takes a byte at least, so the number of bytes bounds their number. -/
def takeCodes? : Nat → Headers → Bytes → Option Headers
  | _, h, [] => some h
  | 0, _, _ => none
  | fuel + 1, h, info :: rest => do
    let kind := info.toNat / 16
    let number := info.toNat % 16
    let counts := (rest.take 16).map UInt8.toNat
    let size := counts.foldl (· + ·) 0
    let symbols := (rest.drop 16).take size
    guard (counts.length = 16 && symbols.length = size && size ≤ 256)
    guard (kind ≤ 1 && number < 4 && fits 0 1 counts)
    guard (kind = 1 || symbols.all (· ≤ 15))
    let code : PrefixCode := { counts, symbols := (symbols.map UInt8.toNat).toArray }
    let h :=
      if kind = 0 then { h with constants := (number, code) :: h.constants }
      else { h with varyings := (number, code) :: h.varyings }
    takeCodes? fuel h (rest.drop (16 + size))

/-- The code for constant parts with a number; moving pictures have two that are always there. -/
def constant? (h : Headers) (number : Nat) : Option PrefixCode :=
  (h.constants ++ if h.isMoving then [(0, constantLuminance), (1, constantColour)]
    else []).lookup number

/-- The code for varying parts with a number; moving pictures have two that are always there. -/
def varying? (h : Headers) (number : Nat) : Option PrefixCode :=
  (h.varyings ++ if h.isMoving then [(0, varyingLuminance), (1, varyingColour)]
    else []).lookup number

/-! ### Applications -/

/-- What the segment of a frame of moving pictures begins with. -/
def movingStart : Bytes := [0x41, 0x56, 0x49, 0x31, 0]

/-- What the segment begins with that says how the components stand for colours. -/
def coloursStart : Bytes := [0x41, 0x64, 0x6f, 0x62, 0x65]

/-- What a segment with a part of a long description begins with. -/
def extensionStart : Bytes :=
  [0x68, 0x74, 0x74, 0x70, 0x3a, 0x2f, 0x2f, 0x6e, 0x73, 0x2e, 0x61, 0x64, 0x6f, 0x62, 0x65,
    0x2e, 0x63, 0x6f, 0x6d, 0x2f, 0x78, 0x6d, 0x70, 0x2f, 0x65, 0x78, 0x74, 0x65, 0x6e, 0x73,
    0x69, 0x6f, 0x6e, 0x2f, 0]

/-- Takes in the segment that may say how the components stand for colours. -/
def takeColours? (h : Headers) (segment : Bytes) : Option Headers :=
  if segment.length < 12 then none
  else if !coloursStart.isPrefixOf segment then some h
  else match segment.getD 11 0 with
    | 0 => some { h with colours := .inks }
    | 1 => some { h with colours := .luminance }
    | 2 => some { h with colours := .inkLuminance }
    | _ => none

/-- Takes in the segment that moving pictures have.  Unless it is too short to tell anything, five
bytes of it are always read. -/
def takeMoving? (h : Headers) (bytes : Bytes) : Option (Headers × Bytes) := do
  let length := ofBig (← field? bytes 0 2)
  guard (2 ≤ length)
  if length ≤ movingStart.length then return (h, bytes.drop length)
  else
    let start ← field? bytes 2 movingStart.length
    return ({ h with isMoving := h.isMoving || start = movingStart },
      bytes.drop (max length (2 + movingStart.length)))

/-- If the segment holds a part of a long description, it says in forty bytes what the part
belongs to. -/
def isLabelled (segment : Bytes) : Bool :=
  segment.length ≤ extensionStart.length || !extensionStart.isPrefixOf segment
    || extensionStart.length + 40 ≤ segment.length

/-! ### Segments -/

/-- The bytes of a segment, without the two that give its length, and what follows it. -/
def segment? (bytes : Bytes) : Option (Bytes × Bytes) := do
  let length := ofBig (← field? bytes 0 2)
  guard (2 ≤ length)
  return (← field? bytes 2 (length - 2), bytes.drop length)

/-- Takes in the segment that a marker other than a scan begins, and yields what follows it. -/
def take? (h : Headers) (marker : UInt8) (bytes : Bytes) : Option (Headers × Bytes) := do
  let meaning := Marker.of marker
  if meaning = .application 0 then h.takeMoving? bytes
  else
    let (segment, rest) ← segment? bytes
    let h ← match meaning with
      | .frame isProgressive => h.takeFrame? isProgressive segment
      | .quantizers => takeQuantizers? segment.length h segment
      | .codes => takeCodes? segment.length h segment
      | .interval => if segment.length = 2 then some { h with interval := ofBig segment } else none
      | .application 1 => if isLabelled segment then some h else none
      | .application 14 => h.takeColours? segment
      | .refused | .finish | .scan => none
      | _ => some h
    return (h, rest)

/-! ### Readiness -/

/-- The most bytes of a decoded image. -/
def maxDecoded : Nat := 512 * 1024 * 1024

/-- The names of components that stand for red, green and blue. -/
def primaryNames : List UInt8 := [0x52, 0x47, 0x42]

/-- How the components of a frame stand for colours, when everything is known. -/
def finalColours (h : Headers) (frame : Frame) : Colours :=
  if frame.components.map Component.name = primaryNames then .primaries
  else if frame.components.length = 3 && h.colours = .inks then .primaries
  else h.colours

/-- Everything is there that decoding a frame needs: not too large a picture, its tables, and
if it is not progressive the codes of all components. -/
def isReady (h : Headers) (frame : Frame) : Bool :=
  let colours := h.finalColours frame
  colours.count ≤ frame.components.length
    && frame.width * frame.height * colours.decodedBytes ≤ maxDecoded
    && frame.components.all fun c =>
      h.quantizers.contains c.quantizer
        && (frame.isProgressive
          || (h.constant? c.constant).isSome && (h.varying? c.varying).isSome)

end Headers

end Bindery.Jpeg
