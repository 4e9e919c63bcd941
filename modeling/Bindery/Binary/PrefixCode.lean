/-!
# Prefix codes

A `PrefixCode` is canonical: it is given by how many codewords of each length there are and by
its symbols in the order of their codewords.  `PrefixCode.ofLengths` makes the code in which
every symbol has a codeword of a given length, and `PrefixCode.read?` reads a codeword.
-/

namespace Bindery.Binary

/-- Bits that are still to be read. -/
abbrev Bits : Type := List Bool

/-- A canonical prefix code. -/
structure PrefixCode where
  /-- The number of codewords of each length, from length one on. -/
  counts : List Nat
  /-- The symbols, shorter codewords first. -/
  symbols : Array Nat
deriving DecidableEq, Repr

namespace PrefixCode

/-- The code with a codeword of the given length for each symbol; length zero means that the
symbol has none, and no length exceeds `longest`. -/
def ofLengths (longest : Nat) (lengths : List Nat) : PrefixCode where
  counts := (List.range longest).map fun i => lengths.count (i + 1)
  symbols := ((List.range longest).flatMap fun i =>
    (lengths.zipIdx.filter fun entry => entry.1 = i + 1).map Prod.snd).toArray

/-- The number of codewords. -/
def size (c : PrefixCode) : Nat :=
  c.symbols.size

/-- How many sequences of as many bits as the longest codeword may have begin with a codeword
that is counted, if `used` sequences as long as the codewords before did. -/
def covered : List Nat → Nat → Nat
  | [], used => used
  | count :: counts, used => covered counts (2 * used + count)

/-- Every sequence of bits begins with exactly one codeword. -/
def isComplete (c : PrefixCode) : Bool :=
  covered c.counts 0 = 1 <<< c.counts.length

/-- Reads a codeword among codes of growing length.  The bits so far are `offset` more than the
first codeword that is not shorter, whose symbol has the number `index`. -/
def readFrom? (symbols : Array Nat) : List Nat → Nat → Nat → Bits → Option (Nat × Bits)
  | [], _, _, _ => none
  | _ :: _, _, _, [] => none
  | count :: counts, offset, index, b :: bits =>
    let offset := 2 * offset + b.toNat
    if offset < count then (symbols[index + offset]?).map (·, bits)
    else readFrom? symbols counts (offset - count) (index + count) bits

/-- Reads a codeword. -/
def read? (c : PrefixCode) (bits : Bits) : Option (Nat × Bits) :=
  readFrom? c.symbols c.counts 0 0 bits

end PrefixCode

end Bindery.Binary
