import Bindery.Directive

/-!
# The merged document

A `Document` holds the fixed declarations that every document starts with, the directives and
the body that the sources contribute, and a `Diagnostic` for each declaration that was left
out.  `Document.render` writes it as one text with one marker before and one after the body.
-/

namespace Bindery

/-- The declarations every document starts with: the class, lists nested up to eight deep with
a label for each level, strike-out, images, links and the page. -/
def fixedPreamble : List String := [
  "\\documentclass\x7barticle\x7d",
  "\\usepackage\x7benumitem\x7d",
  "\\setlistdepth\x7b8\x7d",
  "\\setlist[itemize,1]\x7blabel=\\textbullet\x7d",
  "\\setlist[itemize,2]\x7blabel=--\x7d",
  "\\setlist[itemize,3]\x7blabel=*\x7d",
  "\\setlist[itemize,4]\x7blabel=-\x7d",
  "\\setlist[itemize,5]\x7blabel=$\\cdot$\x7d",
  "\\setlist[itemize,6]\x7blabel=$\\diamond$\x7d",
  "\\setlist[itemize,7]\x7blabel=$\\ast$\x7d",
  "\\setlist[itemize,8]\x7blabel=$\\circ$\x7d",
  "\\usepackage\x7bulem\x7d",
  "\\usepackage\x7bgraphicx\x7d",
  "\\usepackage\x7bhyperref\x7d",
  "\\usepackage\x7bgeometry\x7d",
  "\\geometry\x7ba4paper, margin=1in\x7d"]

/-- A declaration that was left out of the merged document. -/
inductive Diagnostic where
  /-- Some requested package is not available. -/
  | unavailable (origin capability text : String)
  /-- The requested packages cannot be read. -/
  | unparseable (origin text : String)
  /-- An earlier declaration already loads one of the requested packages. -/
  | conflict (origin capability kept dropped : String)
deriving DecidableEq, Repr

/-- The sentence that reports a diagnostic. -/
def Diagnostic.message : Diagnostic → String
  | unavailable origin capability _ =>
    origin ++ ": capability '" ++ capability ++ "' is not available, omitted"
  | unparseable origin text =>
    origin ++ ": could not parse capability from '" ++ text ++ "', omitted"
  | conflict origin capability kept dropped =>
    origin ++ ": '" ++ dropped ++ "' conflicts with earlier '" ++ kept ++ "' for '" ++ capability
      ++ "', omitted"

/-- The document that is compiled. -/
structure Document where
  /-- The declarations it starts with. -/
  fixed : List String
  /-- The directives that the sources contribute. -/
  custom : List Directive
  body : List String
  /-- What was left out. -/
  diagnostics : List Diagnostic
deriving DecidableEq, Repr

namespace Document

/-- The document of no sources. -/
def empty : Document :=
  { fixed := fixedPreamble, custom := [], body := [], diagnostics := [] }

/-- The lines of the preamble, fixed declarations first. -/
def preamble (d : Document) : List String :=
  d.fixed ++ d.custom.map Directive.text

/-- The line is part of the preamble, word for word. -/
def declares (d : Document) (line : String) : Bool :=
  d.preamble.contains line

/-- The first preamble line that already loads a package listed by the name. -/
def loader? (d : Document) (name : String) : Option String :=
  let fromFixed := d.fixed.find? fun line =>
    (packageName? line.toList).any (sharesPackage · name)
  let fromCustom := d.custom.find? fun directive =>
    directive.capability.any (sharesPackage · name)
  fromFixed.or (fromCustom.map Directive.text)

/-- The document with one more directive. -/
def declare (d : Document) (directive : Directive) : Document :=
  { d with custom := d.custom ++ [directive] }

/-- The document with one more diagnostic. -/
def note (d : Document) (diagnostic : Diagnostic) : Document :=
  { d with diagnostics := d.diagnostics ++ [diagnostic] }

/-- The document with more lines of content. -/
def appendBody (d : Document) (lines : List String) : Document :=
  { d with body := d.body ++ lines }

/-- The lines of the document: preamble, opening marker, body, closing marker. -/
def allLines (d : Document) : List String :=
  d.preamble ++ [beginDocument] ++ d.body ++ [endDocument]

/-- The document as one text, with a line feed after each line. -/
def render (d : Document) : String :=
  String.join (d.allLines.map (· ++ "\n"))

end Document

end Bindery
