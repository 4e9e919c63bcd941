import Bindery.Image.Jpeg.Scan

/-!
# Sequential pictures

In a sequential picture every block is coded at once.  Damage to the coded data only spoils the
picture, which ends there; but what markers within the data begin has to make sense.
`isSequence` says whether it does.
-/

namespace Bindery.Jpeg

open Binary

/-- Reads the varying coefficients of a block from the given position on.  Each takes a position
at least, so the number of positions bounds the number of codewords. -/
def coefficients? (code : PrefixCode) : Nat → Nat → Stream → Option Stream
  | 0, _, s => some s
  | fuel + 1, position, s =>
    if 64 ≤ position then some s
    else do
      let (symbol, s) ← s.symbol? code
      let run := symbol / 16
      let size := symbol % 16
      if size ≠ 0 then coefficients? code fuel (position + run + 1) (s.skip size)
      else if run = 15 then coefficients? code fuel (position + 16) s
      else some s

/-- Reads a block. -/
def block? (h : Headers) (s : Stream) (c : Component) : Option Stream := do
  let (size, s) ← s.symbol? (← h.constant? c.constant)
  coefficients? (← h.varying? c.varying) 63 1 (s.skip size)

/-- How a scan ends. -/
inductive ScanEnd where
  /-- The picture is finished. -/
  | finished
  | refused
  /-- A marker has been met. -/
  | marker (m : UInt8) (rest : Bytes)
deriving DecidableEq, Repr

/-- Goes through so many units, with so many up to the next restart. -/
def units (h : Headers) (blocks : List Component) : Nat → (left : Nat) → Stream → ScanEnd
  | 0, _, _ => .finished
  | count + 1, left, s =>
    match blocks.foldlM (block? h) s with
    | none => .finished
    | some s =>
      match Scan.countUnit h.interval left s with
      | .refused => .refused
      | .continued left s =>
        match s.marker with
        | none => units h blocks count left s
        | some m =>
          match Marker.of m with
          | .finish => .finished
          | .restart => units h blocks count left (if h.interval = 0 then s.reset else s)
          | _ => .marker m s.rest

/-- What follows a marker within the data of a scan makes sense: segments up to the end, or up to
another scan, which `rest` has to accept.  Every segment takes two bytes at least, so the number
of bytes bounds the number of segments. -/
def isBetween (accepts : Headers → Scan → Bytes → Bool) :
    Nat → Headers → UInt8 → Bytes → Bool
  | 0, _, _, _ => false
  | fuel + 1, h, m, bytes =>
    match Marker.of m with
    | .finish => true
    | .scan =>
      match h.takeScan? bytes with
      | none => false
      | some (h, scan, rest) => accepts h scan rest
    | _ =>
      match h.take? m bytes with
      | none => false
      | some (h, rest) =>
        match Marker.next? 0 rest with
        | none => false
        | some (m, rest) => isBetween accepts fuel h m rest

/-- The coded data of a scan and what follows them make sense.  If the first scan has all
components of the frame, no other scan is looked at.  Every scan has a header, so the number of
bytes bounds the number of scans. -/
def isSequence (hasAll : Bool) : Nat → Headers → Scan → Bytes → Bool
  | 0, _, _, _ => true
  | fuel + 1, h, scan, bytes =>
    match units h scan.blocks scan.size h.interval { rest := bytes } with
    | .finished => true
    | .refused => false
    | .marker m rest =>
      isBetween (fun h next rest => hasAll || isSequence hasAll fuel h next rest)
        (rest.length + 1) h m rest

end Bindery.Jpeg
