import Bindery.Fragment
import Bindery.Path
import Bindery.Text.Utf8

/-!
# Sources

A request merges sources of three kinds (`SourceKind`), always in the order `SourceKind.all`.
A `SourceFile` is a source as it was handed in.  Extracting one yields an `Extracted` fragment
with the files that belong to it, or a `SourceError`, which leaves the other sources alone.
-/

namespace Bindery

/-- The kinds of source. -/
inductive SourceKind where
  /-- Markup of the document's own kind. -/
  | latex
  /-- A slide deck. -/
  | slides
  /-- A notebook. -/
  | notebook
deriving DecidableEq, Repr

namespace SourceKind

/-- The kinds in the order in which a request handles them. -/
def all : List SourceKind := [latex, slides, notebook]

/-- The position of a kind in that order. -/
def rank : SourceKind → Nat
  | latex => 0
  | slides => 1
  | notebook => 2

/-- The name of a kind. -/
def name : SourceKind → String
  | latex => "latex"
  | slides => "slides"
  | notebook => "notebook"

/-- The start of the name under which a source of the kind is kept. -/
def fileStem : SourceKind → String
  | latex => "latex"
  | slides => "ppt"
  | notebook => "notebook"

/-- The extension of the name under which a source of the kind is kept. -/
def extension : SourceKind → String
  | latex => "tex"
  | slides => "pptx"
  | notebook => "ipynb"

/-- The name under which the source of the given number is kept. -/
def fileName (kind : SourceKind) (index : Nat) : String :=
  kind.fileStem ++ "_" ++ toString index ++ "." ++ kind.extension

end SourceKind

/-- A source as it was handed in. -/
structure SourceFile where
  kind : SourceKind
  /-- The name the caller knows it by. -/
  name : String
  bytes : Bytes
deriving DecidableEq, Repr

/-- What a source yields. -/
structure Extracted where
  fragment : Fragment
  /-- The files written for the fragment. -/
  assets : List Path := []
deriving DecidableEq, Repr

/-- Why a source yields nothing. -/
inductive SourceError where
  /-- The file cannot be read. -/
  | unreadable (origin detail : String)
  /-- Markup that is not UTF-8. -/
  | invalidEncoding (origin : String)
  | malformedNotebook (origin detail : String)
  | malformedSlides (origin detail : String)
deriving DecidableEq, Repr

namespace SourceError

/-- The name of the source. -/
def origin : SourceError → String
  | unreadable origin _ => origin
  | invalidEncoding origin => origin
  | malformedNotebook origin _ => origin
  | malformedSlides origin _ => origin

/-- The sentence that reports the error. -/
def message : SourceError → String
  | unreadable origin detail => origin ++ ": unreadable: " ++ detail
  | invalidEncoding origin => origin ++ ": not valid UTF-8 text"
  | malformedNotebook origin detail => origin ++ ": malformed notebook: " ++ detail
  | malformedSlides origin detail => origin ++ ": malformed slide deck: " ++ detail

end SourceError

end Bindery
