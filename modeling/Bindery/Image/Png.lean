import Bindery.Binary.Inflate
import Bindery.Image.Png.Prelude

/-!
# PNG images

`Png.isDecodable` says whether an image can be decoded completely: its header comes first and
makes sense, the chunks before the data are as they have to be, and the data expand to every
row.  Bytes after the start of the chunk that follows the data do not count.  The data of the data
chunks together are a compressed stream of rows.  `expand?` expands as much of the stream as the
rows need; what follows them is looked at only as far as it is in the same chunk and can be read
without more output (`isSoundAhead`).  `Header.hasRows` says whether every row has a filter that
exists.
-/

namespace Bindery.Png

open Binary Inflate

/-- Codes have to be complete and repetitions may only refer to output. -/
def rules : Rules where
  needsCompleteCodes := true
  needsOutput := true
  spareSymbolsEnd := true
  lookahead := 7

/-! ### Streams -/

/-- What follows the header of a stream. -/
def afterHeader? : Bytes → Option Bytes
  | method :: flags :: rest =>
    if method.toNat % 16 = 8 && method.toNat / 16 ≤ 7
        && (256 * method.toNat + flags.toNat) % 31 = 0 && flags.toNat / 32 % 2 = 0 then
      some rest
    else none
  | _ => none

/-- Of so many bits that are left of chunks of the given numbers of bytes, those that are left
of the chunk where reading has stopped. -/
def leftOfChunk (left : Nat) : List Nat → Nat
  | [] => 0
  | _ :: sizes =>
    let later := 8 * sizes.foldl (· + ·) 0
    if later ≤ left then left - later else leftOfChunk left sizes

/-- Nothing wrong comes to light if headers and ends of blocks are read that follow the output.
Every step takes a bit at least, so the number of bits bounds the number of steps. -/
def isSoundAhead (size : Nat) : Nat → State → Bool
  | 0, _ => true
  | fuel + 1, s =>
    match s.part with
    | .header =>
      if s.bits.length < 10 then true
      else match s.readHeader rules with
        | .ok s => isSoundAhead size fuel s
        | .error .truncated => true
        | .error .malformed => false
    | .codes literals _ =>
      if size < s.out.size || s.bits.length < longestWord then true
      else match literals.read? s.bits with
        | some (symbol, bits) =>
          if symbol = endSymbol then isSoundAhead size fuel { s with bits }.endBlock else true
        | none => true
    | _ => true

/-- The first bytes of the given number of the stream in data chunks. -/
def expand? (size : Nat) (chunks : List Bytes) : Option Bytes := do
  let bits := bitsOf (← afterHeader? chunks.flatten)
  match State.run rules (some size) (bits.length + 1) { bits } with
  | .error _ => none
  | .ok s =>
    let ahead := s.bits.take (leftOfChunk s.bits.length (chunks.map List.length))
    guard (isSoundAhead size (ahead.length + 1) { s with bits := ahead })
    return s.out.toList.take size

/-! ### Rows -/

/-- The first column and row and the steps between columns and rows of each of seven passes. -/
def passes : List (Nat × Nat × Nat × Nat) :=
  [(0, 0, 8, 8), (4, 0, 8, 8), (0, 4, 4, 8), (2, 0, 4, 4), (0, 2, 2, 4), (1, 0, 2, 2),
    (0, 1, 1, 2)]

/-- The number of steps from a start that stay below an end. -/
def stepsBelow (start step stop : Nat) : Nat :=
  (stop - start + (step - 1)) / step

/-- The width and height of each picture that the rows form. -/
def Header.pictures (h : Header) : List (Nat × Nat) :=
  if h.isInterlaced then
    (passes.map fun (column, row, across, down) =>
      (stepsBelow column across h.width, stepsBelow row down h.height)).filter
        fun (width, height) => 0 < width && 0 < height
  else [(h.width, h.height)]

/-- The number of bytes of a row, without its filter. -/
def Header.rowBytes (h : Header) (width : Nat) : Nat :=
  (width * h.pixelBits + 7) / 8

/-- The number of bytes of all rows. -/
def Header.size (h : Header) : Nat :=
  h.pictures.foldl (fun n (width, height) => n + height * (1 + h.rowBytes width)) 0

/-- What follows so many rows, if all of them are there and have a filter that exists. -/
def rows? (rowBytes : Nat) : Nat → Bytes → Option Bytes
  | 0, data => some data
  | _ + 1, [] => none
  | height + 1, filter :: data =>
    if 4 < filter then none
    else if (data.take rowBytes).length < rowBytes then none
    else rows? rowBytes height (data.drop rowBytes)

/-- The data hold every row. -/
def Header.hasRows (h : Header) (data : Bytes) : Bool :=
  (h.pictures.foldlM (fun data (width, height) => rows? (h.rowBytes width) height data)
    data).isSome

/-! ### Images -/

/-- The bytes that every image starts with. -/
def signature : Bytes :=
  [0x89, 0x50, 0x4e, 0x47, 0x0d, 0x0a, 0x1a, 0x0a]

/-- The kind of the chunks that hold the rows. -/
def dataKind : List Char := ['I', 'D', 'A', 'T']

/-- The kind of the chunks that hold the rows of a frame of an animation. -/
def frameKind : List Char := ['f', 'd', 'A', 'T']

/-- The chunk holds rows. -/
def isData (c : Chunk) : Bool :=
  c.kind = dataKind || c.kind = frameKind

/-- The data in chunks of one kind.  Those of a frame are numbered, from the number of frames
that have been announced on. -/
def contents? (frames : Nat) (kind : List Char) (chunks : List Chunk) : Option (List Bytes) :=
  if kind = dataKind then some (chunks.map Chunk.data)
  else if frames = 0 then none
  else chunks.zipIdx.mapM fun (c, i) =>
    if (Binary.field? c.data 0 4).map Binary.ofBig = some (frames + i) then some (c.data.drop 4)
    else none

/-- The image that consists of a header, other chunks, and what follows them. -/
def isImage (first : Chunk) (others : List Chunk) (rest : Bytes) : Bool :=
  let fromData := others.dropWhile fun c => !isData c
  let kind := (fromData.head?.map Chunk.kind).getD dataKind
  let data := fromData.takeWhile fun c => c.kind = kind
  let isFollowed := !(fromData.dropWhile fun c => c.kind = kind).isEmpty
    || (Chunk.nextKind? rest).any (· != kind)
  match Header.ofChunk? first with
  | none => false
  | some header =>
    match (others.takeWhile fun c => !isData c).foldlM Prelude.take? { header } with
    | none => false
    | some p =>
      p.isComplete && header.fits && data.all Chunk.isIntact && isFollowed
        && ((contents? p.frames kind data).bind (expand? header.size)).any header.hasRows

/-- The image can be decoded completely. -/
def isDecodable (bytes : Bytes) : Bool :=
  let body := bytes.drop signature.length
  match Chunk.readAll body.length body with
  | ([], _) => false
  | (first :: others, rest) => signature.isPrefixOf bytes && isImage first others rest

end Bindery.Png
