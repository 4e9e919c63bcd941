import Bindery.Deck.Slide
import Bindery.Escape
import Bindery.Outline

/-!
# Typesetting slides

Every slide is a section with its title, if it has one, and its paragraphs: those of text boxes
as plain text, the others as list items.  `render` typesets slides one after another.
-/

namespace Bindery.Deck

/-- Text as it is typeset. -/
def literal (text : List Char) : List Char :=
  Escape.smartQuotes (Escape.escape text)

/-- Text as the argument of a command. -/
def inCommand (command : String) (text : List Char) : List Char :=
  '\\' :: command.toList ++ '{' :: text ++ ['}']

/-- Text as the argument of a command, if a condition holds. -/
def inCommandIf (condition : Bool) (command : String) (text : List Char) : List Char :=
  if condition then inCommand command text else text

/-- A typeset run; a blank run has none. -/
def Run.render? (r : Run) : Option (List Char) :=
  let text := joinLines r.text
  if text.isEmpty then none
  else some
    (inCommandIf r.underline "underline"
      (inCommandIf r.italic "textit" (inCommandIf r.bold "textbf" (literal text))))

/-- A typeset paragraph; a blank paragraph has none. -/
def Paragraph.render? (p : Paragraph) : Option (List Char) :=
  let parts := p.runs.filterMap Run.render?
  if parts.isEmpty then none else some (Text.joinWith [' '] parts)

/-- The lines of a section with a title. -/
def titleLines (title : List Char) : List String :=
  [String.ofList (inCommand "section*" (literal title)), ""]

/-- Typesets a paragraph inside the lists that are open. -/
def renderParagraph (isTextBox : Bool) (o : Outline) (p : Paragraph) : List String × Outline :=
  match p.render? with
  | none => ([], o)
  | some text =>
    if isTextBox then
      let (lines, o) := o.plain (String.ofList text)
      (lines ++ [""], o)
    else o.item p.level (String.ofList text)

/-- Typesets paragraphs, each with whether it is in a text box, and closes all lists. -/
def renderParagraphs (o : Outline) : List (Bool × Paragraph) → List String
  | [] => o.finish.1
  | (isTextBox, p) :: ps =>
    let (lines, o) := renderParagraph isTextBox o p
    lines ++ renderParagraphs o ps

/-- The paragraphs of the shapes that are no titles, each with whether it is in a text box. -/
def Slide.paragraphs (s : Slide) : List (Bool × Paragraph) :=
  (s.shapes.filter fun shape => !shape.isTitle).flatMap fun shape =>
    shape.paragraphs.map fun p => (shape.isTextBox, p)

/-- The lines of a slide. -/
def Slide.render (s : Slide) : List String :=
  (s.title?.map titleLines).getD [] ++ renderParagraphs {} s.paragraphs ++ [""]

/-- The lines of slides. -/
def render (slides : List Slide) : List String :=
  slides.flatMap Slide.render

end Bindery.Deck
