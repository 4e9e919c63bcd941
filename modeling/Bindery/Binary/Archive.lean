import Bindery.Binary.Archive.Directory
import Bindery.Binary.Inflate

/-!
# Zip archives

An archive ends with a record that says where its directory is, and the directory describes
the entries.  `Archive.ofBytes?` finds and reads the directory; bytes in front of the archive
and after it do not matter.  `Archive.read?` reads an entry, which is stored or deflated, and
checks its check sum.  `Archive.ofEntries` writes an archive of stored entries.
-/

namespace Bindery

/-- An archive whose directory has been read. -/
structure Archive where
  bytes : Bytes
  entries : List Archive.Entry
deriving DecidableEq, Repr

namespace Archive

open Binary

/-- What every entry begins with. -/
def entryMark : Bytes := [0x50, 0x4b, 3, 4]

/-- The archive in a byte string, according to the last record whose directory can be read. -/
def ofBytes? (bytes : Bytes) : Option Archive :=
  ((positions endMark 0 bytes).reverse.findSome? fun position =>
    (Directory.at? bytes position).bind (Directory.entries? bytes)).map fun entries =>
      { bytes, entries }

/-! ### Reading entries -/

/-- The entry of the given name, which is the last if there are several. -/
def find? (a : Archive) (name : String) : Option Entry :=
  a.entries.reverse.find? fun entry => entry.name = name

/-- The names of the entries, without repetitions. -/
def names (a : Archive) : List String :=
  (a.entries.map Entry.name).eraseDups

/-- The length of the header of an entry, without the name and the extra fields. -/
def headerLength : Nat := 30

/-- The bytes that an entry takes, as far as they are there. -/
def content? (a : Archive) (entry : Entry) : Option Bytes := do
  let bytes := a.bytes.drop entry.offset
  let header ← field? bytes 0 headerLength
  guard (entryMark.isPrefixOf header)
  let nameLength ← little? header 26 2
  let extraLength ← little? header 28 2
  return (bytes.drop (headerLength + nameLength + extraLength)).take entry.size

/-- Deflated entries may have codes of a single codeword and may repeat what was never there. -/
def rules : Inflate.Rules where
  needsCompleteCodes := false
  needsOutput := false
  spareSymbolsEnd := false
  lookahead := 0

/-- The data of an entry. -/
def read? (a : Archive) (name : String) : Option Bytes := do
  let entry ← a.find? name
  guard (!entry.isEncrypted && !entry.hasCipher)
  let content ← a.content? entry
  let data ← match entry.method with
    | 0 => some content
    | 8 => Inflate.inflate? rules content
    | _ => none
  guard ((crc32 data).toNat = entry.crc)
  return data

/-! ### Writing -/

/-- The fields that the parts of an archive have in common. -/
def commonFields (name data : Bytes) : Bytes :=
  little 2 20 ++ little 2 0x800 ++ little 2 0 ++ little 4 0 ++ little 4 (crc32 data).toNat
    ++ little 4 data.length ++ little 4 data.length ++ little 2 name.length ++ little 2 0

/-- Stored entries, and the parts of the directory that describe them; the first entry begins
at the given position. -/
def parts (position : Nat) : List (String × Bytes) → Bytes × Bytes
  | [] => ([], [])
  | (name, data) :: rest =>
    let name := Text.utf8 name.toList
    let entry := entryMark ++ commonFields name data ++ name ++ data
    let described := directoryMark ++ little 2 20 ++ commonFields name data ++ little 2 0
      ++ little 2 0 ++ little 2 0 ++ little 4 0 ++ little 4 position ++ name
    let (entries, directory) := parts (position + entry.length) rest
    (entry ++ entries, described ++ directory)

/-- The archive of stored entries. -/
def ofEntries (entries : List (String × Bytes)) : Bytes :=
  let (content, directory) := parts 0 entries
  content ++ directory ++ endMark ++ little 2 0 ++ little 2 0 ++ little 2 entries.length
    ++ little 2 entries.length ++ little 4 directory.length ++ little 4 content.length
    ++ little 2 0

end Archive

end Bindery
