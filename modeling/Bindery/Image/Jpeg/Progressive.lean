import Bindery.Image.Jpeg.Scan

/-!
# Progressive pictures

In a progressive picture each scan adds coefficients of blocks, or bits of them.  Damage to the
coded data only spoils the picture, which ends there.  How many bits a scan takes depends on
which coefficients earlier scans have set, so `Planes` keeps track of them; `isProgression`
says whether what the scans and the markers between them say makes sense.
-/

namespace Bindery.Jpeg

open Binary

/-- The positions of the coefficients of a block that are not zero. -/
abbrev Block : Type := List Nat

/-- The blocks of each component. -/
abbrev Planes : Type := List (Array Block)

/-- A state within a scan of varying coefficients. -/
structure Refinement where
  stream : Stream
  /-- The number of blocks of which nothing new follows. -/
  empty : Nat := 0
deriving DecidableEq, Repr

/-- The value of a coefficient that is coded by so many bits: half of the numbers are
negative. -/
def valueOf (size bits : Nat) : Int :=
  if bits < 1 <<< (size - 1) then (bits : Int) - ((1 <<< size) - 1 : Nat) else bits

/-- The number of empty blocks that a run of the given size stands for, this one included. -/
def emptyRun (size : Nat) (s : Stream) : Nat × Stream :=
  let (n, s) := s.number size
  (1 <<< size + n, s)

/-- Reads new coefficients of a block from a position on.  Each takes a position at least, so the
number of positions bounds the number of codewords. -/
def newCoefficients? (scan : Scan) (code : PrefixCode) :
    Nat → Nat → Block → Refinement → Option (Block × Refinement)
  | 0, _, block, r => some (block, r)
  | fuel + 1, position, block, r => do
    let (symbol, s) ← r.stream.symbol? code
    let run := symbol / 16
    let size := symbol % 16
    let goOn (position : Nat) (block : Block) (s : Stream) : Option (Block × Refinement) :=
      if scan.last < position then some (block, { r with stream := s })
      else newCoefficients? scan code fuel position block { r with stream := s }
    if size ≠ 0 then
      let (bits, s) := s.number size
      let isSet := valueOf size bits * ((1 <<< scan.low : Nat) : Int) % 65536 ≠ 0
      goOn (position + run + 1) (if isSet then min (position + run) 63 :: block else block) s
    else if run = 15 then goOn (position + 16) block s
    else
      let (empty, stream) := emptyRun run s
      some (block, { stream, empty := empty - 1 })

/-- Passes over a correction bit of a coefficient. -/
def correction? (s : Stream) : Option Stream :=
  let s := s.skip 1
  if s.bits.isEmpty then s.fill? else some s

/-- Goes from a position on over coefficients that are set, with a correction bit for each, and
over so many that are not, up to the next that is not or to the last. -/
def advance? (last : Nat) (block : Block) :
    Nat → (position zeros : Nat) → Stream → Option (Nat × Stream)
  | 0, position, _, s => some (position, s)
  | fuel + 1, position, zeros, s =>
    if block.contains position then do
      let s ← correction? s
      if position = last then some (position, s)
      else advance? last block fuel (position + 1) zeros s
    else if zeros = 0 || position = last then some (position, s)
    else advance? last block fuel (position + 1) (zeros - 1) s

/-- Reads corrections of the coefficients of a block from a position on. -/
def corrections? (last : Nat) (block : Block) : Nat → Nat → Stream → Option Stream
  | 0, _, s => some s
  | fuel + 1, position, s =>
    if last < position then some s
    else do
      let s ← if block.contains position then correction? s
        else if s.bits.isEmpty then s.fill? else some s
      corrections? last block fuel (position + 1) s

/-- Reads corrections and new coefficients of a block from a position on, up to the end of the
block or to a run of blocks of which nothing new follows. -/
def refine? (scan : Scan) (code : PrefixCode) :
    Nat → Nat → Block → Refinement → Option (Nat × Block × Refinement)
  | 0, position, block, r => some (position, block, r)
  | fuel + 1, position, block, r => do
    let (symbol, s) ← r.stream.symbol? code
    let run := symbol / 16
    let size := symbol % 16
    if size = 0 && run < 15 then
      let (empty, stream) := emptyRun run s
      some (position, block, { stream, empty })
    else do
      guard (size ≤ 1)
      let s := s.skip size
      let (position, s) ← if scan.last < position then some (position, s)
        else advance? scan.last block 64 position run s
      let block := if size = 1 then position :: block else block
      let r := { r with stream := s }
      if scan.last < position + 1 then some (position + 1, block, r)
      else refine? scan code fuel (position + 1) block r

/-- Reads what a scan says of the varying coefficients of a block. -/
def varyingOf? (scan : Scan) (code : PrefixCode) (block : Block) (r : Refinement) :
    Option (Block × Refinement) :=
  if scan.high = 0 then
    if 0 < r.empty then some (block, { r with empty := r.empty - 1 })
    else newCoefficients? scan code 64 scan.first block r
  else do
    let (position, block, r) ←
      if r.empty = 0 then refine? scan code 64 scan.first block r
      else some (scan.first, block, r)
    if r.empty = 0 then some (block, r)
    else
      let s ← if block.isEmpty then some r.stream
        else do corrections? scan.last block 64 position (← r.stream.fill?)
      some (block, { stream := s, empty := r.empty - 1 })

/-- Reads what a scan says of the constant coefficient of a block. -/
def constantOf? (h : Headers) (scan : Scan) (s : Stream) (c : Component) : Option Stream := do
  let code ← h.constant? c.constant
  if scan.high = 0 then
    let (size, s) ← s.symbol? code
    return s.skip size
  else
    let s ← if s.bits.isEmpty then s.fill? else some s
    if s.bits.isEmpty then none else some (s.skip 1)

/-- Counts a unit; a restart ends a run of empty blocks. -/
def countRefinement? (h : Headers) (left : Nat) (r : Refinement) : Option (Nat × Refinement) :=
  match Scan.countUnit h.interval left r.stream with
  | .refused => none
  | .continued now stream =>
    let isRestarted := left ≤ 1 && h.interval ≠ 0
    some (now, { stream, empty := if isRestarted then 0 else r.empty })

/-- Goes through the units of a scan of constant coefficients. -/
def constantUnits? (h : Headers) (scan : Scan) (blocks : List Component) :
    Nat → (left : Nat) → Stream → Option Stream
  | 0, _, s => some s
  | count + 1, left, s => do
    let s ← blocks.foldlM (constantOf? h scan) s
    let (left, r) ← countRefinement? h left { stream := s }
    constantUnits? h scan blocks count left r.stream

/-- Goes through the blocks of a scan of varying coefficients, of which so many are left. -/
def varyingUnits? (h : Headers) (scan : Scan) (code : PrefixCode) (size : Nat) :
    Nat → (left : Nat) → Array Block → Refinement → Option (Array Block × Stream)
  | 0, _, plane, r => some (plane, r.stream)
  | count + 1, left, plane, r => do
    let i := size - (count + 1)
    let (block, r) ← varyingOf? scan code (plane.getD i []) r
    let plane := if i < plane.size then plane.setIfInBounds i block else plane.push block
    let (left, r) ← countRefinement? h left r
    varyingUnits? h scan code size count left plane r

/-- Reads the data of a scan. -/
def scanData? (h : Headers) (scan : Scan) (planes : Planes) (bytes : Bytes) :
    Option (Planes × Stream) := do
  let s : Stream := { rest := bytes }
  guard (scan.members.length ≤ (h.finalColours scan.frame).count)
  match scan.members, scan.components with
  | [i], [c] =>
    if scan.first = 0 then
      guard (scan.last = 0)
      return (planes, ← constantUnits? h scan [c] scan.size h.interval s)
    else
      let code ← h.varying? c.varying
      let (plane, s) ← varyingUnits? h scan code scan.size scan.size h.interval
        (planes.getD i #[]) { stream := s }
      return (planes.set i plane, s)
  | _, components =>
    guard (scan.last = 0 && components.all fun c => (h.constant? c.constant).isSome)
    return (planes, ← constantUnits? h scan scan.blocks scan.size h.interval s)

/-- The greatest number of scans. -/
def maxScans : Nat := 100

/-- What follows a marker makes sense: segments and scans, up to the end or to damage.  Every
segment takes a byte at least, so the number of bytes bounds their number. -/
def isProgressionFrom : Nat → Headers → Planes → (scans : Nat) → UInt8 → Bytes → Bool
  | 0, _, _, _, _, _ => true
  | fuel + 1, h, planes, scans, m, bytes =>
    match Marker.of m with
    | .finish => true
    | .scan =>
      match h.takeScan? bytes with
      | none => false
      | some (h, scan, rest) =>
        match (scanData? h scan planes rest).bind fun (planes, s) =>
            s.marker?.map fun next => (planes, next) with
        | none => true
        | some (planes, m, rest) =>
          scans < maxScans && isProgressionFrom fuel h planes (scans + 1) m rest
    | .restart =>
      match Marker.next? 0 bytes with
      | none => true
      | some (m, rest) => isProgressionFrom fuel h planes scans m rest
    | _ =>
      match h.take? m bytes with
      | none => false
      | some (h, rest) =>
        match Marker.next? 0 rest with
        | none => true
        | some (m, rest) => isProgressionFrom fuel h planes scans m rest

/-- The data of the first scan and what follows them make sense.  If the data are not damaged,
reading them has to meet a marker. -/
def isProgression (h : Headers) (scan : Scan) (bytes : Bytes) : Bool :=
  match scanData? h scan (scan.frame.components.map fun _ => #[]) bytes with
  | none => true
  | some (planes, s) =>
    match s.marker with
    | none => false
    | some m => isProgressionFrom (s.rest.length + 1) h planes 1 m s.rest

end Bindery.Jpeg
