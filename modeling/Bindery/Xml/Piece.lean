/-!
# Pieces of an XML text

`Piece.ofText?` cuts an XML text into the contents of its tags and the text between them, one
character at a time (`Scan.step`).  Comments, instructions and document types are read over.
-/

namespace Bindery.Xml

/-- A piece of an XML text. -/
inductive Piece where
  /-- What is between angle brackets. -/
  | tag (content : List Char)
  /-- Text as it is written. -/
  | text (content : List Char)
  /-- The content of a section that is taken literally. -/
  | literal (content : List Char)
deriving DecidableEq, Repr

/-- The characters that count as white space inside markup. -/
def isSpace (c : Char) : Bool :=
  c == ' ' || c == '\t' || c == '\n' || c == '\x0d'

/-- What the next character belongs to.  What has been read is kept with the latest character
first, in markup without the opening bracket. -/
inductive Mode where
  | text (read : List Char)
  /-- After an opening bracket. -/
  | opened
  /-- In a tag, and there perhaps inside a quotation. -/
  | tag (read : List Char) (quotation : Option Char)
  | instruction (read : List Char)
  /-- After an opening bracket and an exclamation mark. -/
  | bang
  | comment (read : List Char)
  | literal (read : List Char)
  /-- In a document type, with so many brackets open. -/
  | doctype (read : List Char) (brackets : Nat)
deriving DecidableEq, Repr

/-- The state of reading: the mode, and the pieces that are complete, the latest first. -/
abbrev Scan : Type := Mode × List Piece

/-- The text begins with a word, in whichever case. -/
def beginsWith (word : String) (text : List Char) : Bool :=
  (text.take word.toList.length).map Char.toLower == word.toList.map Char.toLower

/-- Text that has ended, which is no piece if it is empty. -/
def endText (read : List Char) (pieces : List Piece) : List Piece :=
  if read.isEmpty then pieces else .text read.reverse :: pieces

/-- Reads a character of a tag. -/
def stepTag (read : List Char) (quotation : Option Char) (pieces : List Piece) (c : Char) :
    Scan :=
  match quotation with
  | some q => (.tag (c :: read) (if c = q then none else some q), pieces)
  | none =>
    if c = '>' then (.text [], .tag read.reverse :: pieces)
    else if c = '\x22' || c = '\x27' then (.tag (c :: read) (some c), pieces)
    else (.tag (c :: read) none, pieces)

/-- Ends a comment. -/
def endComment? (read : List Char) (pieces : List Piece) : Option Scan :=
  if ['!', '-', '-'].isPrefixOf read.reverse then some (.text [], pieces) else none

/-- Ends a literal section. -/
def endLiteral? (read : List Char) (pieces : List Piece) : Option Scan :=
  let mark := "![CDATA["
  if mark.toList.isPrefixOf read.reverse then
    some (.text [], .literal ((read.drop 2).reverse.drop mark.toList.length) :: pieces)
  else none

/-- Ends a document type, which has to have a name. -/
def endDoctype? (read : List Char) (pieces : List Piece) : Option Scan :=
  let mark := "!DOCTYPE"
  if beginsWith mark read.reverse && (read.reverse.drop mark.toList.length).any (!isSpace ·) then
    some (.text [], pieces)
  else none

/-- Reads one character. -/
def Scan.step : Scan → Char → Option Scan
  | (.text read, pieces), c =>
    if c = '<' then some (.opened, endText read pieces) else some (.text (c :: read), pieces)
  | (.opened, pieces), c =>
    if c = '!' then some (.bang, pieces)
    else if c = '?' then some (.instruction [c], pieces)
    else some (stepTag [] none pieces c)
  | (.tag read quotation, pieces), c => some (stepTag read quotation pieces c)
  | (.instruction read, pieces), c =>
    if c = '>' && read.head? = some '?' then
      if read.length ≤ 1 then none else some (.text [], pieces)
    else some (.instruction (c :: read), pieces)
  | (.bang, pieces), c =>
    if c = '[' then some (.literal [c, '!'], pieces)
    else if c = '-' then some (.comment [c, '!'], pieces)
    else if c = 'D' || c = 'd' then some (.doctype [c, '!'] 0, pieces)
    else none
  | (.comment read, pieces), c =>
    if c = '>' && 4 < read.length && ['-', '-'].isPrefixOf read then endComment? read pieces
    else some (.comment (c :: read), pieces)
  | (.literal read, pieces), c =>
    if c = '>' && [']', ']'].isPrefixOf read then endLiteral? read pieces
    else some (.literal (c :: read), pieces)
  | (.doctype read brackets, pieces), c =>
    if c = '<' then some (.doctype (c :: read) (brackets + 1), pieces)
    else if c ≠ '>' then some (.doctype (c :: read) brackets, pieces)
    else if brackets = 0 then endDoctype? read pieces
    else some (.doctype (c :: read) (brackets - 1), pieces)

/-- The pieces at the end of the text; markup has to be complete. -/
def Scan.finish : Scan → Option (List Piece)
  | (.text read, pieces) => some (endText read pieces).reverse
  | _ => none

/-- The pieces of a text. -/
def Piece.ofText? (text : List Char) : Option (List Piece) := do
  let scan ← text.foldlM Scan.step (.text [], [])
  scan.finish

end Bindery.Xml
