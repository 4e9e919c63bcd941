import Bindery.Binary.Number
import Bindery.Binary.PrefixCode

/-!
# Inflating

Data in the DEFLATE format are blocks of stored bytes, or of codes for bytes and for repetitions
of earlier output.  `Inflate.State.step` reads one item, `Inflate.State.run` goes on until
enough has been read, and `Inflate.inflate?` expands all blocks.  Readers differ in what they
refuse, which `Inflate.Rules` says.
-/

namespace Bindery.Inflate

open Binary

/-- What a reader refuses. -/
structure Rules where
  /-- A code has to be complete, only that of distances may have no codeword or a single one of
  one bit, and the end of a block needs a codeword.  Otherwise every code that is not complete
  may have a single codeword or none. -/
  needsCompleteCodes : Bool
  /-- A repetition may not begin in front of the output.  Otherwise there are zeros. -/
  needsOutput : Bool
  /-- The two symbols that have a codeword but no length end a block. -/
  spareSymbolsEnd : Bool
  /-- The number of bits that have to be there for a codeword of a length. -/
  lookahead : Nat
deriving DecidableEq, Repr

/-- Why data cannot be read on. -/
inductive Fault where
  /-- The data end too early. -/
  | truncated
  | malformed
deriving DecidableEq, Repr

/-! ### Bits -/

/-- The bits of a byte string, the low bit of each byte first. -/
def bitsOf (bytes : Bytes) : Bits :=
  bytes.flatMap fun b => (List.range 8).map fun i => b.toNat.testBit i

/-- The bits from the next byte on. -/
def align (bits : Bits) : Bits :=
  bits.drop (bits.length % 8)

/-- A number of so many bits, the lowest first. -/
def number : Nat → Bits → Except Fault (Nat × Bits)
  | 0, bits => .ok (0, bits)
  | _ + 1, [] => .error .truncated
  | width + 1, b :: bits => do
    let (n, bits) ← number width bits
    return (b.toNat + 2 * n, bits)

/-- So many numbers of three bits. -/
def triples : Nat → Bits → Except Fault (List Nat × Bits)
  | 0, bits => .ok ([], bits)
  | count + 1, bits => do
    let (n, bits) ← number 3 bits
    let (rest, bits) ← triples count bits
    return (n :: rest, bits)

/-- The symbol of a codeword. -/
def symbol (code : PrefixCode) (bits : Bits) : Except Fault (Nat × Bits) :=
  match code.read? bits with
  | some found => .ok found
  | none => .error .malformed

/-- Goes on only if something holds. -/
def require (holds : Bool) : Except Fault Unit :=
  if holds then .ok () else .error .malformed

/-! ### Codes -/

/-- The greatest length of a codeword for bytes, lengths and distances. -/
def longestWord : Nat := 15

/-- The greatest length of a codeword for the length of a codeword. -/
def longestLengthWord : Nat := 7

/-- The code for bytes and lengths of a block that brings none. -/
def fixedLiterals : PrefixCode :=
  .ofLengths longestWord (List.replicate 144 8 ++ List.replicate 112 9 ++ List.replicate 24 7
    ++ List.replicate 8 8)

/-- The code for distances of a block that brings none. -/
def fixedDistances : PrefixCode :=
  .ofLengths longestWord (List.replicate 32 5)

/-- The symbol that ends a block. -/
def endSymbol : Nat := 256

/-- The symbols of the code for lengths, in the order in which their lengths are written. -/
def lengthOrder : List Nat :=
  [16, 17, 18, 0, 8, 7, 9, 6, 10, 5, 11, 4, 12, 3, 13, 2, 14, 1, 15]

/-- Reads so many lengths of codewords, of which the latest are first in `lengths`.  Every
codeword brings a length at least, so their number bounds the number of codewords. -/
def lengths (rules : Rules) (code : PrefixCode) (wanted : Nat) :
    Nat → List Nat → Bits → Except Fault (List Nat × Bits)
  | 0, found, bits =>
    if found.length = wanted then .ok (found.reverse, bits) else .error .malformed
  | fuel + 1, found, bits =>
    if wanted ≤ found.length then lengths rules code wanted 0 found bits
    else if bits.length < rules.lookahead then .error .truncated
    else do
      let (symbol, bits) ← symbol code bits
      if symbol < 16 then lengths rules code wanted fuel (symbol :: found) bits
      else if symbol = 16 then
        let (n, bits) ← number 2 bits
        match found with
        | [] => .error .malformed
        | last :: _ =>
          lengths rules code wanted fuel (List.replicate (3 + n) last ++ found) bits
      else if symbol = 17 then
        let (n, bits) ← number 3 bits
        lengths rules code wanted fuel (List.replicate (3 + n) 0 ++ found) bits
      else
        let (n, bits) ← number 7 bits
        lengths rules code wanted fuel (List.replicate (11 + n) 0 ++ found) bits

/-- The codes of a block may be used. -/
def Rules.admits (rules : Rules) (literals distances : PrefixCode) : Bool :=
  if rules.needsCompleteCodes then
    literals.isComplete && literals.symbols.contains endSymbol
      && (distances.isComplete || distances.size = 0
        || distances.size = 1 && distances.counts.head? = some 1)
  else
    (literals.isComplete || literals.size ≤ 1) && (distances.isComplete || distances.size ≤ 1)

/-- Reads the codes that a block brings. -/
def ownCodes (rules : Rules) (bits : Bits) : Except Fault (PrefixCode × PrefixCode × Bits) := do
  let (literals, bits) ← number 5 bits
  let (distances, bits) ← number 5 bits
  let (count, bits) ← number 4 bits
  let literals := literals + 257
  let distances := distances + 1
  require (literals ≤ 286 && distances ≤ 30)
  let (written, bits) ← triples (count + 4) bits
  let code := PrefixCode.ofLengths longestLengthWord ((List.range 19).map fun symbol =>
    written.getD (lengthOrder.idxOf symbol) 0)
  require code.isComplete
  let total := literals + distances
  let (found, bits) ← lengths rules code total total [] bits
  let literalCode := PrefixCode.ofLengths longestWord (found.take literals)
  let distanceCode := PrefixCode.ofLengths longestWord (found.drop literals)
  require (rules.admits literalCode distanceCode)
  return (literalCode, distanceCode, bits)

/-! ### Blocks -/

/-- What is read next. -/
inductive Part where
  /-- The header of a block. -/
  | header
  /-- So many bytes of a stored block. -/
  | stored (left : Nat)
  /-- The codes of a block. -/
  | codes (literals distances : PrefixCode)
  /-- Nothing, after the last block. -/
  | nothing
deriving DecidableEq, Repr

/-- A state of reading. -/
structure State where
  part : Part := .header
  /-- The block is the last. -/
  isLast : Bool := false
  out : Array UInt8 := #[]
  bits : Bits
deriving DecidableEq, Repr

namespace State

/-- The state at the end of a block. -/
def endBlock (s : State) : State :=
  { s with part := if s.isLast then .nothing else .header }

/-- The state in a stored block of which so many bytes are left. -/
def storedOf (s : State) (left : Nat) : State :=
  if left = 0 then s.endBlock else { s with part := .stored left }

/-- Reads the header of a block, with the codes that it brings. -/
def readHeader (rules : Rules) (s : State) : Except Fault State := do
  let (isLast, bits) ← number 1 s.bits
  let (kind, bits) ← number 2 bits
  let s := { s with isLast := isLast = 1, bits }
  match kind with
  | 0 =>
    let (length, bits) ← number 16 (align bits)
    let (complement, bits) ← number 16 bits
    require (length + complement = 0xffff)
    return storedOf { s with bits } length
  | 1 => return { s with part := .codes fixedLiterals fixedDistances }
  | 2 =>
    let (literals, distances, bits) ← ownCodes rules bits
    return { s with part := .codes literals distances, bits }
  | _ => .error .malformed

/-- The least length and the number of extra bits of each length symbol. -/
def lengthTable : Array (Nat × Nat) := #[
  (3, 0), (4, 0), (5, 0), (6, 0), (7, 0), (8, 0), (9, 0), (10, 0), (11, 1), (13, 1), (15, 1),
  (17, 1), (19, 2), (23, 2), (27, 2), (31, 2), (35, 3), (43, 3), (51, 3), (59, 3), (67, 4),
  (83, 4), (99, 4), (115, 4), (131, 5), (163, 5), (195, 5), (227, 5), (258, 0)]

/-- The least distance and the number of extra bits of each distance symbol. -/
def distanceTable : Array (Nat × Nat) := #[
  (1, 0), (2, 0), (3, 0), (4, 0), (5, 1), (7, 1), (9, 2), (13, 2), (17, 3), (25, 3), (33, 4),
  (49, 4), (65, 5), (97, 5), (129, 6), (193, 6), (257, 7), (385, 7), (513, 8), (769, 8),
  (1025, 9), (1537, 9), (2049, 10), (3073, 10), (4097, 11), (6145, 11), (8193, 12), (12289, 12),
  (16385, 13), (24577, 13)]

/-- Reads the extra bits of a table entry. -/
def extra (table : Array (Nat × Nat)) (symbol : Nat) (bits : Bits) :
    Except Fault (Nat × Bits) :=
  match table[symbol]? with
  | none => .error .malformed
  | some (least, width) => (number width bits).map fun (more, bits) => (least + more, bits)

/-- The output with so many bytes repeated from a distance back; in front of it are zeros. -/
def copy (distance : Nat) : Nat → Array UInt8 → Array UInt8
  | 0, out => out
  | length + 1, out =>
    let byte := if out.size < distance then 0 else out.getD (out.size - distance) 0
    copy distance length (out.push byte)

/-- Reads one code of a block: a byte, the end, or a repetition. -/
def readCode (rules : Rules) (literals distances : PrefixCode) (s : State) :
    Except Fault State := do
  let (symbol, bits) ← Inflate.symbol literals s.bits
  let s := { s with bits }
  if symbol < endSymbol then return { s with out := s.out.push (UInt8.ofNat symbol) }
  else if symbol = endSymbol || rules.spareSymbolsEnd && 286 ≤ symbol then return s.endBlock
  else
    let (length, bits) ← extra lengthTable (symbol - 257) bits
    let (symbol, bits) ← Inflate.symbol distances bits
    let (distance, bits) ← extra distanceTable symbol bits
    require (!rules.needsOutput || distance ≤ s.out.size)
    return { s with out := copy distance length s.out, bits }

/-- Reads the header of a block, a stored byte, or a code. -/
def step (rules : Rules) (s : State) : Except Fault State :=
  match s.part with
  | .header => s.readHeader rules
  | .stored left => do
    let (byte, bits) ← number 8 s.bits
    return storedOf { s with out := s.out.push (UInt8.ofNat byte), bits } (left - 1)
  | .codes literals distances => s.readCode rules literals distances
  | .nothing => .error .truncated

/-- Reads on until the output has reached a size, or to the end of the last block if there is no
such size.  Every step takes a bit at least, so the number of bits bounds the number of steps. -/
def run (rules : Rules) (enough : Option Nat) : Nat → State → Except Fault State
  | 0, _ => .error .truncated
  | fuel + 1, s =>
    if enough.any (· ≤ s.out.size) then .ok s
    else if enough.isNone && s.part = .nothing then .ok s
    else match s.step rules with
      | .error e => .error e
      | .ok s => run rules enough fuel s

end State

/-- The state when the output of the bytes has reached a size, or else at the end of the last
block. -/
def expand (rules : Rules) (enough : Option Nat) (bytes : Bytes) : Except Fault State :=
  let bits := bitsOf bytes
  State.run rules enough (bits.length + 1) { bits }

/-- The expanded data; bytes after the last block do not count. -/
def inflate? (rules : Rules) (bytes : Bytes) : Option Bytes :=
  match expand rules none bytes with
  | .ok s => some s.out.toList
  | .error _ => none

end Bindery.Inflate
