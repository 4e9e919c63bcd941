import Bindery.Text.Blank
import Bindery.Text.Lines

/-!
# Slides

A `Slide` consists of shapes, a shape of paragraphs, and a paragraph of runs of text in one
format.  `joinLines` puts text that has line breaks in it on one line.
-/

namespace Bindery.Deck

/-- Text in one format. -/
structure Run where
  text : List Char := []
  bold : Bool := false
  italic : Bool := false
  underline : Bool := false
deriving DecidableEq, Repr

/-- A paragraph of a shape. -/
structure Paragraph where
  /-- How deep the paragraph is nested. -/
  level : Nat := 0
  runs : List Run := []
deriving DecidableEq, Repr

/-- A shape on a slide. -/
structure Shape where
  isTitle : Bool := false
  /-- The paragraphs are plain text and no list items. -/
  isTextBox : Bool := false
  paragraphs : List Paragraph := []
deriving DecidableEq, Repr

/-- A slide. -/
structure Slide where
  shapes : List Shape := []
deriving DecidableEq, Repr

/-- A character that ends a line of text in a run. -/
def breaksLine (c : Char) : Bool :=
  c == '\n' || c == '\x0d' || c == '\x0b'

/-- The text on one line: its lines without white space at their ends, joined by blanks; blank
lines go. -/
def joinLines (text : List Char) : List Char :=
  Text.joinWith [' ']
    (((Text.splitWhere breaksLine text).map Text.trim).filter fun line => !line.isEmpty)

/-- The text of a paragraph, whatever its format. -/
def Paragraph.plainText (p : Paragraph) : List Char :=
  joinLines (p.runs.flatMap Run.text)

/-- The title of a slide: the text of the first shape that is one. -/
def Slide.title? (s : Slide) : Option (List Char) :=
  match s.shapes.find? Shape.isTitle with
  | none => none
  | some shape =>
    let title := Text.joinWith [' ']
      ((shape.paragraphs.map Paragraph.plainText).filter fun text => !text.isEmpty)
    if title.isEmpty then none else some title

end Bindery.Deck
