import Bindery.Base64
import Bindery.Image.Jpeg
import Bindery.Image.Png
import Bindery.Intake
import Bindery.Notebook.Basic
import Bindery.Notebook.Markdown

/-!
# Typesetting notebooks

Of the representations of an output the first that can be used is set: an image, markup, and
then plain text.  An image has to be saved as a file of its own, which may fail, so typesetting
is a dialogue whose questions are images to be saved (`Rendering`).  `Notebook.render` typesets
a notebook, and `Notebook.extract` extracts a source.
-/

namespace Bindery.Notebook

/-- An image file. -/
structure Image where
  name : String
  bytes : Bytes
deriving DecidableEq, Repr

/-- A computation that asks for images to be saved, and learns whether they are. -/
abbrev Rendering (α : Type) : Type :=
  Dialogue Image (fun _ => Bool) α

/-- A typeset part of a notebook. -/
structure Piece where
  /-- The body lines. -/
  lines : List String := []
  /-- The names of the images that the lines include. -/
  images : List String := []
deriving DecidableEq, Repr

namespace Piece

/-- One part after another. -/
def append (p q : Piece) : Piece where
  lines := p.lines ++ q.lines
  images := p.images ++ q.images

instance : Append Piece := ⟨append⟩

/-- The part that includes an image. -/
def ofImage (name : String) : Piece where
  lines := ["\\begin\x7bcenter\x7d",
    "\\includegraphics[width=0.8\\linewidth]\x7b" ++ name ++ "\x7d",
    "\\end\x7bcenter\x7d"]
  images := [name]

end Piece

/-- The media types of images, with the extension of their files and what makes them usable. -/
def imageTypes : List (String × String × (Bytes → Bool)) :=
  [("image/png", "png", Png.isDecodable), ("image/jpeg", "jpg", Jpeg.isDecodable)]

/-- The image that a text in base 64 encodes, if it is usable; white space does not count. -/
def decodeImage? (isUsable : Bytes → Bool) (encoded : String) : Option Bytes :=
  (Base64.decode? (encoded.toList.filter fun c => !Text.isBlank c)).filter isUsable

/-- The images of an output, in order of preference, under the given name. -/
def candidates (label : String) (b : Bundle) : List Image :=
  imageTypes.filterMap fun (media, extension, isUsable) =>
    ((b.text? media).bind (decodeImage? isUsable)).map fun bytes =>
      { name := label ++ "." ++ extension, bytes }

/-- Saves the first image that can be saved. -/
def saveFirst? : List Image → Rendering (Option String)
  | [] => pure none
  | image :: images => do
    if ← Dialogue.question image then return some image.name else saveFirst? images

/-- The lines of an output that is set as text. -/
def bundleLines (b : Bundle) : List String :=
  match b.text? "text/latex" with
  | some markup =>
    (((Text.lines markup.toList).map Escape.stripControls).filter fun line =>
      !Text.isBlankText line).map String.ofList
  | none => ((b.text? "text/plain").map fun text => verbatim text.toList).getD []

/-- Typesets the representations of an output. -/
def renderBundle (label : String) (b : Bundle) : Rendering Piece := do
  match ← saveFirst? (candidates label b) with
  | some name => return Piece.ofImage name
  | none => return { lines := bundleLines b }

/-- Typesets an output. -/
def renderOutput (label : String) : Output → Rendering Piece
  | .stream text => pure { lines := (text.map fun t => verbatim t.toList).getD [] }
  | .rich bundle => renderBundle label bundle
  | .error name value => pure { lines := verbatim (name ++ ": " ++ value).toList }
  | .other => pure {}

/-- Typesets outputs, of which the first has the given number. -/
def renderOutputs (label : String) (first : Nat) : List Output → Rendering Piece
  | [] => pure {}
  | output :: outputs => do
    let piece ← renderOutput (label ++ "_output" ++ toString first) output
    let pieces ← renderOutputs label (first + 1) outputs
    return piece ++ pieces

/-- Typesets a cell, with an empty line after it. -/
def renderCell (label : String) : Cell → Rendering Piece
  | .markdown source => pure { lines := markdown source.toList ++ [""] }
  | .code source outputs => do
    let piece ← renderOutputs label 0 outputs
    return { lines := verbatim source.toList } ++ piece ++ { lines := [""] }
  | .other => pure { lines := [""] }

/-- Typesets cells, of which the first has the given number. -/
def renderCells (stem : String) (first : Nat) : List Cell → Rendering Piece
  | [] => pure {}
  | cell :: cells => do
    let piece ← renderCell (stem ++ "_cell" ++ toString first) cell
    let pieces ← renderCells stem (first + 1) cells
    return piece ++ pieces

/-- Typesets a notebook.  The names of its images begin with `stem`. -/
def render (stem : String) (n : Notebook) : Rendering Piece :=
  renderCells stem 0 n.cells

/-- The declarations that every notebook needs. -/
def preamble : List String :=
  ["\\usepackage\x7bamsmath\x7d", "\\usepackage\x7bupquote\x7d"]

/-- Saves an image in a directory. -/
def saveImage (assets : Path) (image : Image) : Job Bool := do
  match ← act (.write (assets.join image.name) image.bytes) with
  | .ok () => return true
  | .error _ => return false

/-- Extracts a source, and saves its images in a directory. -/
def extract (path assets : Path) : Job (Except SourceError Extracted) := do
  let origin := path.nameForReports
  match ← readSource path with
  | .error e => return .error e
  | .ok bytes =>
    match ofBytes? bytes with
    | none => return .error (.malformedNotebook origin "no notebook")
    | some notebook =>
      let stem := path.fileStem?.getD "notebook"
      let piece ← (render stem notebook).interpret (saveImage assets)
      return .ok {
        fragment := { origin, preamble, body := piece.lines }
        assets := piece.images.map assets.join }

end Bindery.Notebook
