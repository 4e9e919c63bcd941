import Bindery.Deck.Extract
import Bindery.Intake
import Bindery.Notebook.Render

/-!
# Extraction

`SourceKind.extract` turns a source of any kind into a fragment.  Markup is UTF-8 text, with or
without a byte order mark in front, and is split at its markers (`Fragment.ofMarkup`).
-/

namespace Bindery

/-! ### Markup -/

namespace Markup

/-- The text without one byte order mark in front. -/
def dropMark : List Char → List Char
  | [] => []
  | c :: cs => if c = '\uFEFF' then cs else c :: cs

/-- The fragment of the bytes of a source. -/
def fragment? (origin : String) (bytes : Bytes) : Except SourceError Fragment :=
  match Text.decode? bytes with
  | none => .error (.invalidEncoding origin)
  | some text => .ok (Fragment.ofMarkup origin (String.ofList (dropMark text)))

/-- Extracts a source. -/
def extract (path : Path) : Job (Except SourceError Extracted) := do
  match ← readSource path with
  | .error e => return .error e
  | .ok bytes =>
    return (fragment? path.nameForReports bytes).map fun fragment => { fragment }

end Markup

/-! ### Sources of any kind -/

/-- Extracts a source, and saves the files that belong to it in a directory. -/
def SourceKind.extract (kind : SourceKind) (path assets : Path) :
    Job (Except SourceError Extracted) :=
  match kind with
  | latex => Markup.extract path
  | slides => Deck.extract path
  | notebook => Notebook.extract path assets

end Bindery
