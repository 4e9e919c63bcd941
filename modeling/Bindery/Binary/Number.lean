import Bindery.Text.Utf8

/-!
# Numbers as bytes

Numbers of a fixed width, with the least significant byte first (`little`, `ofLittle`) or last
(`ofBig`), and fields cut out of a byte string (`field?`).  `crc32` is the check sum that archives
and images store beside their data: the remainder of the data, as a polynomial over two elements
with the low bit of each byte first, complemented at both ends.
-/

namespace Bindery.Binary

/-! ### Check sums -/

/-- One step of the division. -/
def crcShift (c : UInt32) : UInt32 :=
  if c &&& 1 = 1 then (c >>> 1) ^^^ 0xedb88320 else c >>> 1

/-- Takes one byte into the remainder. -/
def crcByte (c : UInt32) (b : UInt8) : UInt32 :=
  Nat.repeat crcShift 8 (c ^^^ b.toUInt32)

/-- The check sum of a byte string. -/
def crc32 (bytes : Bytes) : UInt32 :=
  bytes.foldl crcByte 0xffffffff ^^^ 0xffffffff

/-! ### Numbers of a fixed width -/

/-- The given number of bytes of a number, the least significant first. -/
def little : Nat → Nat → Bytes
  | 0, _ => []
  | width + 1, n => UInt8.ofNat (n % 256) :: little width (n / 256)

/-- The number of bytes of which the least significant comes first. -/
def ofLittle : Bytes → Nat
  | [] => 0
  | b :: bs => b.toNat + 256 * ofLittle bs

/-- The number of bytes of which the most significant comes first. -/
def ofBig (bytes : Bytes) : Nat :=
  bytes.foldl (fun n b => 256 * n + b.toNat) 0

/-- The bytes from an offset on, if there are so many. -/
def field? (bytes : Bytes) (offset length : Nat) : Option Bytes :=
  let field := (bytes.drop offset).take length
  if field.length = length then some field else none

/-- The number in a field of which the least significant byte comes first. -/
def little? (bytes : Bytes) (offset width : Nat) : Option Nat :=
  (field? bytes offset width).map ofLittle

end Bindery.Binary
