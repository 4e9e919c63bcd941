import Bindery.Binary.Archive.Entry

/-!
# Directories

A record at the end of an archive says where the directory is and how many entries it has; if
its numbers are too small, a second record in front of it has larger ones, to which a locator
leads.  `EndRecord.ofBytes?` and `WideRecord.ofBytes?` read the records, `Directory.at?` finds
the directory that a record describes, and `Directory.entries?` reads it.  Bytes in front of an
archive move everything, so positions are counted from a start that is found first.
-/

namespace Bindery.Archive

open Binary

/-- What the record at the end begins with. -/
def endMark : Bytes := [0x50, 0x4b, 5, 6]

/-- What the record with large numbers begins with. -/
def wideMark : Bytes := [0x50, 0x4b, 6, 6]

/-- What the locator of the record with large numbers begins with. -/
def locatorMark : Bytes := [0x50, 0x4b, 6, 7]

/-- The positions at which a mark stands, counted from `start`. -/
def positions (mark : Bytes) (start : Nat) : Bytes → List Nat
  | [] => []
  | b :: bs =>
    let rest := positions mark (start + 1) bs
    if mark.isPrefixOf (b :: bs) then start :: rest else rest

/-- The positions at which a mark stands from one position up to another. -/
def positionsIn (mark bytes : Bytes) (start stop : Nat) : List Nat :=
  positions mark start ((bytes.take stop).drop start)

/-! ### Records -/

/-- The record at the end of an archive. -/
structure EndRecord where
  /-- The number of the disk that the record is on. -/
  disk : Nat
  /-- The number of the disk that the directory is on. -/
  directoryDisk : Nat
  /-- The number of entries on the disk. -/
  diskCount : Nat
  /-- The number of entries of the archive. -/
  count : Nat
  /-- The position of the directory. -/
  offset : Nat
deriving DecidableEq, Repr

/-- The record at a position; its comment ends with the bytes at the latest. -/
def EndRecord.ofBytes? (bytes : Bytes) (position : Nat) : Option EndRecord := do
  let record := bytes.drop position
  let commentLength ← little? record 20 2
  guard (22 + commentLength ≤ record.length)
  return {
    disk := ← little? record 4 2
    directoryDisk := ← little? record 6 2
    diskCount := ← little? record 8 2
    count := ← little? record 10 2
    offset := ← little? record 16 4 }

/-- The record says that its numbers are too small. -/
def EndRecord.isNarrow (r : EndRecord) : Bool :=
  r.count = 0xffff || r.offset = 0xffffffff

/-- What leads to the record with large numbers. -/
structure Locator where
  /-- The number of the disk that the directory is on. -/
  directoryDisk : Nat
  /-- The position of the record. -/
  offset : Nat
  /-- The number of disks. -/
  disks : Nat
deriving DecidableEq, Repr

/-- The length of a locator. -/
def Locator.length : Nat := 20

/-- The locator in front of a position. -/
def Locator.before? (bytes : Bytes) (position : Nat) : Option Locator := do
  guard (length ≤ position)
  let locator := bytes.drop (position - length)
  guard (locatorMark.isPrefixOf locator)
  return {
    directoryDisk := ← little? locator 4 4
    offset := ← little? locator 8 8
    disks := ← little? locator 16 4 }

/-- The record with large numbers. -/
structure WideRecord where
  /-- The number of bytes that follow the number itself. -/
  length : Nat
  /-- The version of the program that wrote the archive. -/
  madeBy : Nat
  /-- The version that a program needs to read the archive. -/
  needed : Nat
  disk : Nat
  directoryDisk : Nat
  diskCount : Nat
  count : Nat
  offset : Nat
deriving DecidableEq, Repr

/-- The record at a position. -/
def WideRecord.ofBytes? (bytes : Bytes) (position : Nat) : Option WideRecord := do
  let record := bytes.drop position
  return {
    length := ← little? record 4 8
    madeBy := ← little? record 12 2
    needed := ← little? record 14 2
    disk := ← little? record 16 4
    directoryDisk := ← little? record 20 4
    diskCount := ← little? record 24 8
    count := ← little? record 32 8
    offset := ← little? record 48 8 }

/-! ### Directories -/

/-- A directory that a record describes. -/
structure Directory where
  /-- How far bytes in front of the archive have moved it. -/
  shift : Nat
  /-- Where the directory begins. -/
  start : Nat
  count : Nat
deriving DecidableEq, Repr

namespace Directory

/-- The least number of bytes of a description. -/
def leastEntry : Nat := 46

/-- The bound of the positions in an archive. -/
def maxPosition : Nat := 1 <<< 64

/-- The directory that the record with small numbers at a position describes.  It is the first
that follows the place that the record gives; an empty one is just in front of the record. -/
def ofEndRecord? (bytes : Bytes) (position : Nat) (r : EndRecord) : Option Directory := do
  guard (r.disk = r.directoryDisk)
  if r.count = 0 then
    let start := max position r.offset
    return { shift := start - r.offset, start, count := r.diskCount }
  else
    let start ← (positionsIn directoryMark bytes r.offset position).head?
    return { shift := start - r.offset, start, count := r.diskCount }

/-- A record with large numbers belongs to a locator at a position. -/
def isLocated (l : Locator) (locatorPosition position : Nat) (r : WideRecord) : Bool :=
  44 ≤ r.length && position + 12 + r.length = locatorPosition
    && r.directoryDisk = l.directoryDisk && leastEntry * r.count + r.offset ≤ position

/-- The directory that a record with large numbers describes, to which a locator at a position
leads. -/
def ofLocator? (bytes : Bytes) (l : Locator) (position : Nat) : Option Directory := do
  guard (l.offset < position && l.disks ≤ 1)
  let (found, r) ← (positionsIn wideMark bytes l.offset position).findSome? fun found =>
    ((WideRecord.ofBytes? bytes found).filter (isLocated l position found)).map (found, ·)
  let shift := found - l.offset
  guard (r.diskCount ≤ r.count && r.needed ≤ r.madeBy && r.disk = r.directoryDisk)
  guard (r.offset + shift < maxPosition)
  return { shift, start := r.offset + shift, count := r.count }

/-- The directory that the record at a position describes. -/
def at? (bytes : Bytes) (position : Nat) : Option Directory := do
  let r ← EndRecord.ofBytes? bytes position
  match if r.isNarrow then Locator.before? bytes position else none with
  | some locator => ofLocator? bytes locator (position - Locator.length)
  | none => ofEndRecord? bytes position r

/-- So many entries from the start of the bytes on, moved by a shift. -/
def entriesFrom? (shift : Nat) : Nat → Bytes → Option (List Entry)
  | 0, _ => some []
  | count + 1, bytes => do
    let (entry, rest) ← Entry.ofDirectory? bytes
    guard (entry.offset + shift < maxPosition)
    return { entry with offset := entry.offset + shift } :: (← entriesFrom? shift count rest)

/-- The entries of a directory. -/
def entries? (bytes : Bytes) (d : Directory) : Option (List Entry) :=
  entriesFrom? d.shift d.count (bytes.drop d.start)

end Directory

end Bindery.Archive
