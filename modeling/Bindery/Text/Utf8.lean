/-!
# Text as bytes

`utf8` encodes a text.  `decodeMarks` reads bytes as UTF-8 and yields a character for each
well-formed sequence and one mark `none` for each longest stretch of bytes that begins a
well-formed sequence without completing it, and for each other stray byte.  `decode?` accepts
only bytes without marks, and `decodeLossy` writes the replacement character for each mark.
-/

namespace Bindery

/-- The contents of a file. -/
abbrev Bytes : Type := List UInt8

namespace Text

/-- The UTF-8 encoding of a text. -/
def utf8 (cs : List Char) : Bytes :=
  cs.flatMap String.utf8EncodeChar

/-- A sequence that has begun: the bytes still missing, the value read so far, and the range
of the next byte. -/
structure Pending where
  missing : Nat
  value : Nat
  low : UInt8 := 0x80
  high : UInt8 := 0xbf
deriving DecidableEq, Repr

/-- What the first byte of a sequence says: a character of its own, a longer sequence, or
nothing that UTF-8 knows. -/
inductive Lead where
  | complete (c : Char)
  | begun (p : Pending)
  | stray
deriving DecidableEq, Repr

/-- The reading of a byte at the start of a sequence. -/
def lead (b : UInt8) : Lead :=
  if b < 0x80 then .complete (Char.ofNat b.toNat)
  else if b < 0xc2 then .stray
  else if b < 0xe0 then .begun { missing := 1, value := b.toNat - 0xc0 }
  else if b = 0xe0 then .begun { missing := 2, value := 0, low := 0xa0 }
  else if b = 0xed then .begun { missing := 2, value := 0xd, high := 0x9f }
  else if b < 0xf0 then .begun { missing := 2, value := b.toNat - 0xe0 }
  else if b = 0xf0 then .begun { missing := 3, value := 0, low := 0x90 }
  else if b < 0xf4 then .begun { missing := 3, value := b.toNat - 0xf0 }
  else if b = 0xf4 then .begun { missing := 3, value := 4, high := 0x8f }
  else .stray

/-- The characters and marks of the bytes that follow a sequence which may have begun. -/
def decodeFrom : Option Pending → Bytes → List (Option Char)
  | none, [] => []
  | some _, [] => [none]
  | some p, b :: bs =>
    if p.low ≤ b ∧ b ≤ p.high then
      let value := 64 * p.value + (b.toNat - 0x80)
      if p.missing ≤ 1 then some (Char.ofNat value) :: decodeFrom none bs
      else decodeFrom (some { missing := p.missing - 1, value }) bs
    else
      match lead b with
      | .complete c => none :: some c :: decodeFrom none bs
      | .begun q => none :: decodeFrom (some q) bs
      | .stray => none :: none :: decodeFrom none bs
  | none, b :: bs =>
    match lead b with
    | .complete c => some c :: decodeFrom none bs
    | .begun q => decodeFrom (some q) bs
    | .stray => none :: decodeFrom none bs

/-- The characters of a byte string, with a mark for each stretch that is not UTF-8. -/
def decodeMarks (bs : Bytes) : List (Option Char) :=
  decodeFrom none bs

/-- The text that the bytes encode. -/
def decode? (bs : Bytes) : Option (List Char) :=
  (decodeMarks bs).mapM id

/-- The text of the bytes, with a replacement character for each stretch that is not UTF-8. -/
def decodeLossy (bs : Bytes) : List Char :=
  (decodeMarks bs).map fun mark => mark.getD '\ufffd'

end Text

end Bindery
