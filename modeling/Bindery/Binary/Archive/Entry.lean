import Bindery.Binary.Number
import Bindery.Text.CodePage

/-!
# Directory entries

The directory of an archive describes each entry: `Entry.ofDirectory?` reads the description at
the start of a byte string.  The description ends with extra fields, and `Entry.takeField` takes
in what each of them says: sizes that need eight bytes, names and comments in UTF-8, and how the
entry is encrypted.  Fields of other kinds are passed over.
-/

namespace Bindery.Archive

open Binary

/-- An entry of the directory. -/
structure Entry where
  name : String
  /-- The name as it is written. -/
  rawName : Bytes
  comment : String
  method : Nat
  crc : Nat
  /-- The number of bytes that the entry takes. -/
  size : Nat
  /-- The number of bytes of its data. -/
  expandedSize : Nat
  /-- Where the entry begins. -/
  offset : Nat
  isEncrypted : Bool
  /-- A field says how the entry is encrypted. -/
  hasCipher : Bool := false
deriving DecidableEq, Repr

/-- What every part of the directory begins with. -/
def directoryMark : Bytes := [0x50, 0x4b, 1, 2]

/-- The method of entries about which only a field says how they are compressed. -/
def cipherMethod : Nat := 99

/-! ### Extra fields -/

/-- What has become of an entry with a field that was taken in. -/
inductive Taken where
  /-- There are more bytes. -/
  | more (e : Entry) (rest : Bytes)
  /-- The field is cut off, which ends the fields. -/
  | cut (e : Entry)
  | refused
deriving DecidableEq, Repr

/-- A number that may need more than four bytes. -/
inductive Large where
  | expandedSize
  | size
  | offset
deriving DecidableEq, Repr

/-- The number as it is known so far. -/
def Large.get (e : Entry) : Large → Nat
  | expandedSize => e.expandedSize
  | size => e.size
  | offset => e.offset

/-- The entry with another number. -/
def Large.put (e : Entry) (n : Nat) : Large → Entry
  | expandedSize => { e with expandedSize := n }
  | size => { e with size := n }
  | offset => { e with offset := n }

/-- What four bytes say of a number that needs more. -/
def tooLarge : Nat := 0xffffffff

/-- Takes in a field of large numbers.  A number is there if four bytes were too few, or if there
is room for all three; `used` is the length of those before. -/
def Entry.takeLarge (length : Nat) : List Large → (used : Nat) → Entry → Bytes → Taken
  | [], used, e, bytes =>
    if length < used then .refused
    else if bytes.length < length - used then .cut e
    else .more e (bytes.drop (length - used))
  | n :: ns, used, e, bytes =>
    if 24 ≤ length || n.get e = tooLarge then
      match little? bytes 0 8 with
      | none => .cut e
      | some value => takeLarge length ns (used + 8) (n.put e value) (bytes.drop 8)
    else takeLarge length ns used e bytes

/-- The text in a field that replaces the text of the given bytes, whose check sum it has to
hold, and what follows the field. -/
def replacement (length : Nat) (old bytes : Bytes) : Option (Option (Bytes × String) × Bytes) :=
  if bytes.length < 5 then none
  else if length < 5 then some (none, bytes)
  else match field? bytes 5 (length - 5) with
    | none => none
    | some raw =>
      let rest := bytes.drop length
      if little? bytes 1 4 = some (crc32 old).toNat then
        some ((Text.decode? raw).map fun text => (raw, String.ofList text), rest)
      else some (none, rest)

/-- Takes in a field that replaces a text. -/
def Entry.takeText (e : Entry) (length : Nat) (old bytes : Bytes)
    (put : Bytes × String → Entry) : Taken :=
  match replacement length old bytes with
  | none => .cut e
  | some (none, _) => .refused
  | some (some text, rest) => .more (put text) rest

/-- The length of the field of times. -/
def ntfsLength : Nat := 32

/-- Checks the field of times, which has one part of known kind and length. -/
def Entry.takeNtfs (e : Entry) (length : Nat) (bytes : Bytes) : Taken :=
  if length ≠ ntfsLength then .refused
  else match little? bytes 4 2, little? bytes 6 2 with
    | none, _ => .cut e
    | some tag, size =>
      if tag ≠ 1 then .refused
      else match size with
        | none => .cut e
        | some size =>
          if size ≠ 24 then .refused
          else if bytes.length < ntfsLength then .cut e
          else .more e (bytes.drop ntfsLength)

/-- Takes in how the entry is encrypted. -/
def Entry.takeCipher (e : Entry) (length : Nat) (bytes : Bytes) : Taken :=
  if length ≠ 7 then .refused
  else match little? bytes 0 2, little? bytes 2 2, little? bytes 4 1, little? bytes 5 2 with
    | some version, some vendor, some strength, some method =>
      if vendor = 0x4541 && (version = 1 || version = 2) && 1 ≤ strength && strength ≤ 3 then
        .more { e with method, hasCipher := true } (bytes.drop 7)
      else .refused
    | _, _, _, _ => .cut e

/-- Checks the field of Unix times, of which a byte says how many follow; four bytes are always
allowed. -/
def Entry.takeTimes (e : Entry) (length : Nat) (bytes : Bytes) : Taken :=
  match bytes with
  | [] => .cut e
  | flags :: _ =>
    let count := (List.range 8).countP fun i => flags.toNat.testBit i
    if length ≠ 5 && length ≠ 1 + 4 * count then .refused
    else if 8 ≤ flags then .refused
    else if bytes.length < length then .cut e
    else .more e (bytes.drop length)

/-- Takes in a field of the given kind and length. -/
def Entry.takeField (e : Entry) (kind length : Nat) (bytes : Bytes) : Taken :=
  match kind with
  | 0x0001 => takeLarge length [.expandedSize, .size, .offset] 0 e bytes
  | 0x000a => e.takeNtfs length bytes
  | 0x5455 => e.takeTimes length bytes
  | 0x6375 =>
    e.takeText length (Text.utf8 e.comment.toList) bytes fun (_, text) =>
      { e with comment := text }
  | 0x7075 =>
    e.takeText length e.rawName bytes fun (raw, text) => { e with rawName := raw, name := text }
  | 0x9901 => e.takeCipher length bytes
  | _ => if bytes.length < length then .cut e else .more e (bytes.drop length)

/-- Takes in all fields.  Each has four bytes at least, so the number of bytes bounds their
number. -/
def Entry.takeFields? : Nat → Entry → Bytes → Option Entry
  | 0, e, _ => some e
  | fuel + 1, e, bytes =>
    match little? bytes 0 2, little? bytes 2 2 with
    | some kind, some length =>
      match e.takeField kind length (bytes.drop 4) with
      | .more e rest => takeFields? fuel e rest
      | .cut e => some e
      | .refused => none
    | _, _ => some e

/-! ### Entries -/

/-- The text of a name or a comment; a flag says that it is in UTF-8. -/
def textOf (isUtf8 : Bool) (bytes : Bytes) : String :=
  String.ofList (if isUtf8 then Text.decodeLossy bytes else Text.decode437 bytes)

/-- The entry that the directory describes at the start of the bytes, and what follows the
description. -/
def Entry.ofDirectory? (bytes : Bytes) : Option (Entry × Bytes) := do
  guard (directoryMark.isPrefixOf bytes)
  let flags ← little? bytes 8 2
  let nameLength ← little? bytes 28 2
  let extraLength ← little? bytes 30 2
  let commentLength ← little? bytes 32 2
  let rawName ← field? bytes 46 nameLength
  let extra ← field? bytes (46 + nameLength) extraLength
  let comment ← field? bytes (46 + nameLength + extraLength) commentLength
  let isUtf8 := flags.testBit 11
  let entry : Entry := {
    name := textOf isUtf8 rawName
    rawName
    comment := textOf isUtf8 comment
    method := ← little? bytes 10 2
    crc := ← little? bytes 16 4
    size := ← little? bytes 20 4
    expandedSize := ← little? bytes 24 4
    offset := ← little? bytes 42 4
    isEncrypted := flags.testBit 0 }
  let entry ← entry.takeFields? extraLength extra
  guard (entry.hasCipher || entry.method ≠ cipherMethod)
  return (entry, bytes.drop (46 + nameLength + extraLength + commentLength))

end Bindery.Archive
