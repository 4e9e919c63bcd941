import Bindery.Text.Blank
import Bindery.Text.Lines
import Bindery.Fragment

/-!
# Directives of the preamble

`LineClass.of` says what a preamble line is: one to discard, the request of one or more
packages, a request whose packages cannot be read, or any other declaration.  The packages of
a request are the comma-separated parts of the name in its braces (`packages`), and
`packageName?` reads that name.  A `Directive` is a line that entered the merged document.
-/

namespace Bindery

/-- The two kinds of line in the merged preamble. -/
inductive DirectiveKind where
  /-- Requests packages. -/
  | capability
  /-- Declares anything else. -/
  | other
deriving DecidableEq, Repr

/-- A preamble line of the merged document. -/
structure Directive where
  kind : DirectiveKind
  /-- The name in the braces of a package request. -/
  capability : Option String
  /-- The line as written. -/
  text : String
deriving DecidableEq, Repr

namespace Directive

/-- A request of the packages named. -/
def request (name text : String) : Directive :=
  { kind := .capability, capability := some name, text }

/-- A declaration that requests no package. -/
def plain (text : String) : Directive :=
  { kind := .other, capability := none, text }

end Directive

/-! ### Package names -/

/-- The command that requests packages. -/
def usePackage : String := "\\usepackage"

/-- The text after the first `close`, if there is one, and the text before it. -/
def cutAt (close : Char) : List Char → Option (List Char × List Char)
  | [] => none
  | c :: cs =>
    if c = close then some ([], cs)
    else (cutAt close cs).map fun (inside, rest) => (c :: inside, rest)

/-- The text after an optional argument in square brackets.  An argument that is not closed
is no argument. -/
def skipOptional : List Char → List Char
  | '[' :: cs =>
    match cutAt ']' cs with
    | some (_, rest) => Text.trimStart rest
    | none => '[' :: cs
  | cs => cs

/-- The text in the braces of a package request. -/
def braceArgument? (line : List Char) : Option (List Char) :=
  if usePackage.toList.isPrefixOf line then
    match skipOptional (Text.trimStart (line.drop usePackage.length)) with
    | '{' :: cs => (cutAt '}' cs).map Prod.fst
    | _ => none
  else none

/-- The comma-separated parts of a name, without white space around them. -/
def packageTexts (name : List Char) : List (List Char) :=
  (Text.splitWhere (· == ',') name).map Text.trim

/-- The packages that a name lists. -/
def packages (name : String) : List String :=
  (packageTexts name.toList).map String.ofList

/-- The name that a package request gives, without white space around it; none if the line is
no request or some part of the name is blank. -/
def packageName? (line : List Char) : Option String := do
  let name := Text.trim (← braceArgument? line)
  guard ((packageTexts name).all fun part => !part.isEmpty)
  return String.ofList name

/-- Some package is listed by both names. -/
def sharesPackage (a b : String) : Bool :=
  (packages a).any fun p => (packages b).contains p

/-! ### Classes of preamble lines -/

/-- What a preamble line is. -/
inductive LineClass where
  /-- A blank line, a comment, a document class or a boundary marker. -/
  | discarded
  /-- A request of the packages named. -/
  | request (name : String)
  /-- A request whose packages cannot be read. -/
  | unparseable
  /-- Any other declaration. -/
  | other
deriving DecidableEq, Repr

/-- The command that sets the document class. -/
def documentClass : String := "\\documentclass"

/-- What a line without white space around it is. -/
def LineClass.ofTrimmed (line : List Char) : LineClass :=
  if line.isEmpty || line.head? == some '%' || documentClass.toList.isPrefixOf line
      || isBoundary line then
    .discarded
  else if usePackage.toList.isPrefixOf line then
    match packageName? line with
    | some name => .request name
    | none => .unparseable
  else .other

/-- What a preamble line is. -/
def LineClass.of (line : String) : LineClass :=
  .ofTrimmed (Text.trim line.toList)

end Bindery
