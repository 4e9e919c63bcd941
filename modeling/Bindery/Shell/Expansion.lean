import Bindery.Shell.State

/-!
# Fields

Expanding a word yields fields.  `Fields` collects them: text that is not quoted and comes from
an expansion is cut at separators, and everything else is not.  `Fields.paths` replaces a field
that is a pattern by the paths that match it.
-/

namespace Bindery.Shell

/-- The fields of a word so far. -/
structure Fields where
  /-- The fields that are complete, the latest first. -/
  complete : List Pattern := []
  /-- The field that is being collected. -/
  current : Option Pattern := none
  /-- A blank ended the latest field, so that it can also be what comes before a separator. -/
  endsInBlank : Bool := false

namespace Fields

/-- Adds characters to the current field. -/
def add (f : Fields) (text : List Char) (isQuoted : Bool) : Fields :=
  { f with current := some (f.current.getD [] ++ text.map fun c => (c, isQuoted)) }

/-- Ends the current field. -/
def close (f : Fields) : Fields :=
  match f.current with
  | none => f
  | some field => { complete := field :: f.complete }

/-- Cuts at a separator.  Blanks that follow one another cut once, and so do blanks around
another separator. -/
def cutAt (f : Fields) (c : Char) : Fields :=
  match f.current with
  | some _ => { f.close with endsInBlank := isBlank c }
  | none =>
    if isBlank c then f
    else if f.endsInBlank then { f with endsInBlank := false }
    else { f with complete := [] :: f.complete }

/-- Adds the result of an expansion, which is cut at separators. -/
def addCut (f : Fields) (separators text : List Char) : Fields :=
  text.foldl (fun f c => if separators.contains c then f.cutAt c else f.add [c] false) f

/-- Adds the result of an expansion; without separators it is not cut. -/
def addResult (f : Fields) (text : List Char) (isQuoted : Bool)
    (separators : Option (List Char)) : Fields :=
  match separators with
  | some separators => if isQuoted then f.add text true else f.addCut separators text
  | none => f.add text isQuoted

/-- Adds arguments as fields of their own. -/
def addAll (f : Fields) (isQuoted : Bool) (separators : Option (List Char)) :
    List (List Char) → Fields
  | [] => f
  | [text] => f.addResult text isQuoted separators
  | text :: texts =>
    ((f.addResult text isQuoted separators).close).addAll isQuoted separators texts

/-- All fields. -/
def toList (f : Fields) : List Pattern :=
  f.close.complete.reverse

end Fields

/-! ### Paths that match a pattern -/

/-- The names in a directory that match a pattern; hidden ones only match a dot. -/
def matchingNames (t : Tree) (cwd : Location) (dir : List Char) (p : Pattern) :
    List (List Char) :=
  match t.node cwd (pathOf (if dir.isEmpty then ['.'] else dir)) with
  | .ok (l, .dir _) =>
    ((t.namesIn l).map ofString).filter fun name =>
      p.isMatch name && (name.head? != some '.' || p.text.head? == some '.')
  | _ => []

/-- The parts of a pattern between slashes. -/
def splitPattern : Pattern → List Pattern
  | [] => [[]]
  | (c, isQuoted) :: rest =>
    if c = '/' then [] :: splitPattern rest
    else match splitPattern rest with
      | [] => [[(c, isQuoted)]]
      | part :: parts => ((c, isQuoted) :: part) :: parts

/-- The paths that begin with one of some texts and go on with parts that match. -/
def matchingPaths (t : Tree) (cwd : Location) (starts : List (List Char)) :
    List Pattern → List (List Char)
  | [] => starts
  | part :: parts =>
    let next := starts.flatMap fun start =>
      if part.isActive then (matchingNames t cwd start part).map (start ++ ·)
      else [start ++ part.text]
    let next := if parts.isEmpty then next else next.map (· ++ ['/'])
    matchingPaths t cwd next parts

/-- The paths that match a field, or its text if there are none. -/
def fieldPaths (t : Tree) (cwd : Location) (field : Pattern) : List (List Char) :=
  if field.isActive then
    let found := (matchingPaths t cwd [[]] (splitPattern field)).filter fun path =>
      t.exists? cwd (pathOf path)
    if found.isEmpty then [field.text] else found
  else [field.text]

end Bindery.Shell
