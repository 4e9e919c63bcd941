import Bindery.Deck.Slide
import Bindery.Text.Digit
import Bindery.Xml.Event

/-!
# Reading slides

`Slide.ofEvents` builds a slide from the events of its XML text, of which it knows elements by
their local names.  The elements need not be nested as they should be: a `Reader` holds the
shape, paragraph and run that are open, and an event changes what is open or has no effect.
-/

namespace Bindery.Deck

open Xml (Tag)

/-- What is open while a slide is read. -/
structure Reader where
  slide : Slide := {}
  shape : Option Shape := none
  /-- Paragraphs count. -/
  inBody : Bool := false
  paragraph : Option Paragraph := none
  run : Option Run := none
  /-- Character data count. -/
  inText : Bool := false
deriving DecidableEq, Repr

/-- An attribute that says yes. -/
def isOn (t : Tag) (name : String) : Bool :=
  (t.attribute? name).any fun value =>
    value == ['1'] || value == "true".toList || value == "on".toList

/-- The number that a level attribute gives, which may have a plus sign and has to fit a
machine word. -/
def levelOf? (value : List Char) : Option Nat :=
  let digits := match value with
    | '+' :: rest => rest
    | _ => value
  (Text.natOf? digits).filter (· < UInt64.size)

namespace Reader

/-- The reader with its shape changed, if one is open. -/
def onShape (r : Reader) (f : Shape → Shape) : Reader :=
  { r with shape := r.shape.map f }

/-- The reader with its paragraph changed, if one is open. -/
def onParagraph (r : Reader) (f : Paragraph → Paragraph) : Reader :=
  { r with paragraph := r.paragraph.map f }

/-- The reader with its run changed, if one is open. -/
def onRun (r : Reader) (f : Run → Run) : Reader :=
  { r with run := r.run.map f }

/-- The elements that count. -/
inductive Element where
  | shape
  | shapeProperties
  | placeholder
  | body
  | paragraph
  | paragraphProperties
  | run
  | lineBreak
  | runProperties
  | text
  | other
deriving DecidableEq, Repr

/-- The element of a local name. -/
def Element.of (name : List Char) : Element :=
  match String.ofList name with
  | "sp" => shape
  | "cNvSpPr" => shapeProperties
  | "ph" => placeholder
  | "txBody" => body
  | "p" => paragraph
  | "pPr" => paragraphProperties
  | "r" => run
  | "br" => lineBreak
  | "rPr" => runProperties
  | "t" => text
  | _ => other

/-- A placeholder is for a title. -/
def isTitlePlaceholder (t : Tag) : Bool :=
  (t.attribute? "type").any fun value =>
    value == "title".toList || value == "ctrTitle".toList

/-- The format that the properties of a run give. -/
def withFormat (t : Tag) (run : Run) : Run :=
  { run with
    bold := isOn t "b"
    italic := isOn t "i"
    underline := (t.attribute? "u").any (· != "none".toList) }

/-- Reads the start of an element. -/
def start (r : Reader) (t : Tag) : Reader :=
  match Element.of (Xml.localName t.name) with
  | .shape => { r with shape := some {} }
  | .shapeProperties =>
    r.onShape fun s => { s with isTextBox := s.isTextBox || isOn t "txBox" }
  | .placeholder => r.onShape fun s => { s with isTitle := s.isTitle || isTitlePlaceholder t }
  | .body => { r with inBody := r.shape.isSome }
  | .paragraph => if r.inBody then { r with paragraph := some {} } else r
  | .paragraphProperties =>
    match (t.attribute? "lvl").bind levelOf? with
    | some level => r.onParagraph fun p => { p with level }
    | none => r
  | .run => if r.paragraph.isSome then { r with run := some {} } else r
  | .lineBreak =>
    if r.run.isNone then r.onParagraph fun p => { p with runs := p.runs ++ [{ text := ['\n'] }] }
    else r
  | .runProperties => r.onRun (withFormat t)
  | .text => { r with inText := r.run.isSome }
  | .other => r

/-- Closes the run, which goes into the paragraph. -/
def closeRun (r : Reader) : Reader :=
  match r.run with
  | some run =>
    { (r.onParagraph fun p => { p with runs := p.runs ++ [run] }) with run := none }
  | none => r

/-- Closes the paragraph, which goes into the shape. -/
def closeParagraph (r : Reader) : Reader :=
  match r.paragraph with
  | some p =>
    { (r.onShape fun s => { s with paragraphs := s.paragraphs ++ [p] }) with paragraph := none }
  | none => r

/-- Closes the shape, which goes onto the slide. -/
def closeShape (r : Reader) : Reader :=
  match r.shape with
  | some shape => { r with slide := { shapes := r.slide.shapes ++ [shape] }, shape := none }
  | none => r

/-- Reads the end of an element. -/
def stop (r : Reader) (name : List Char) : Reader :=
  match Element.of (Xml.localName name) with
  | .text => { r with inText := false }
  | .run => r.closeRun
  | .paragraph => r.closeParagraph
  | .body => { r with inBody := false }
  | .shape => r.closeShape
  | _ => r

/-- Reads character data. -/
def text (r : Reader) (content : List Char) : Reader :=
  if r.inText then r.onRun fun run => { run with text := run.text ++ content } else r

/-- Reads an event. -/
def step (r : Reader) : Xml.Event → Reader
  | .start t => r.start t
  | .empty t => (r.start t).stop t.name
  | .stop name => r.stop name
  | .text content => r.text content

end Reader

/-- The slide that events describe. -/
def Slide.ofEvents (events : List Xml.Event) : Slide :=
  (events.foldl Reader.step {}).slide

/-- The slide in an XML text. -/
def Slide.ofText? (text : List Char) : Option Slide :=
  (Xml.Event.ofText? text).map Slide.ofEvents

end Bindery.Deck
