import Bindery.Binary.Archive
import Bindery.Deck.Reader
import Bindery.Deck.Render
import Bindery.Intake

/-!
# Extracting slide decks

A deck is a zip archive with one part for each slide, numbered by its name.  `slides` reads
them in the order of their numbers, and `extract` extracts a source.
-/

namespace Bindery.Deck

/-- The part that makes an archive a deck. -/
def presentationPart : String := "ppt/presentation.xml"

/-- What the name of a slide part begins with. -/
def slideStart : String := "ppt/slides/slide"

/-- What the name of a slide part ends with. -/
def slideEnd : String := ".xml"

/-- The number of a slide part, which has to fit 32 bits. -/
def slideNumber? (name : String) : Option Nat :=
  let start := slideStart.toList
  let text := name.toList
  let rest := text.drop start.length
  let digits := rest.take (rest.length - slideEnd.toList.length)
  if start.isPrefixOf text && slideEnd.toList.isSuffixOf rest then
    (Text.natOf? digits).filter (· < UInt32.size)
  else none

/-- The slide parts among the parts of an archive, in the order of their numbers, and of their
names if the numbers are equal. -/
def slideParts (names : List String) : List String :=
  let numbered := names.filterMap fun name => (slideNumber? name).map fun n => (n, name)
  (numbered.mergeSort fun p q => p.1 < q.1 || (p.1 = q.1 && p.2 ≤ q.2)).map Prod.snd

/-- The slide in a part of an archive. -/
def slide? (a : Archive) (name : String) : Option Slide := do
  let data ← a.read? name
  Slide.ofText? (← Text.decode? data)

/-- The slides of a deck, or what is wrong with it. -/
def slides (bytes : Bytes) : Except String (List Slide) :=
  match Archive.ofBytes? bytes with
  | none => .error "no zip archive"
  | some a =>
    if (a.find? presentationPart).isNone then .error ("missing " ++ presentationPart)
    else (slideParts a.names).mapM fun name =>
      match slide? a name with
      | some slide => .ok slide
      | none => .error (name ++ ": no slide")

/-- The fragment of the bytes of a source. -/
def fragment? (origin : String) (bytes : Bytes) : Except SourceError Fragment :=
  match slides bytes with
  | .error detail => .error (.malformedSlides origin detail)
  | .ok slides => .ok { origin, body := render slides }

/-- Extracts a source.  A directory can be opened, and is no archive. -/
def extract (path : Path) : Job (Except SourceError Extracted) := do
  let origin := path.nameForReports
  match ← act (.read path) with
  | .error .isADirectory =>
    return .error (.malformedSlides origin OsError.isADirectory.message)
  | .error e => return .error (.unreadable origin e.message)
  | .ok bytes => return (fragment? origin bytes).map fun fragment => { fragment }

end Bindery.Deck
