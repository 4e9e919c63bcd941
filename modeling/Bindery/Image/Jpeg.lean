import Bindery.Image.Jpeg.Progressive
import Bindery.Image.Jpeg.Sequential

/-!
# JPEG images

`Jpeg.isDecodable` says whether a decoder that makes the best of damaged pictures gets through
an image: one frame with sensible measures, a scan of its components, in front of that every
table that the frame refers to, and sensible segments between the scans.
-/

namespace Bindery.Jpeg

/-- The scans of a picture make sense, from the data of the first on. -/
def isPicture (h : Headers) (scan : Scan) (bytes : Bytes) : Bool :=
  h.isReady scan.frame
    && if scan.frame.isProgressive then isProgression h scan bytes
      else isSequence scan.hasAll (bytes.length + 1) h scan bytes

/-- Goes from marker to marker up to a scan.  A marker is a byte after `0xff` that is neither
zero nor `0xff`; other bytes between segments are passed over.  Every step takes a byte at
least, so the number of bytes bounds the number of steps. -/
def isPictureFrom : Nat → Headers → (last : UInt8) → Bytes → Bool
  | 0, _, _, _ => false
  | _ + 1, _, _, [] => false
  | fuel + 1, h, last, b :: rest =>
    if last ≠ 0xff || b = 0 || b = 0xff then isPictureFrom fuel h b rest
    else if b = 0xda then
      match h.takeScan? rest with
      | none => false
      | some (h, scan, rest) => isPicture h scan rest
    else match h.take? b rest with
      | none => false
      | some (h, rest) => isPictureFrom fuel h b rest

/-- A decoder gets through the image. -/
def isDecodable : Bytes → Bool
  | 0xff :: 0xd8 :: rest => isPictureFrom (rest.length + 1) {} 0 rest
  | _ => false

end Bindery.Jpeg
