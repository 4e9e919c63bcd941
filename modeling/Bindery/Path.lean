import Bindery.Text.Lines

/-!
# Paths

A `Path` is the text by which a file is named.  Its `parts` are the stretches between slashes
that name something: empty stretches and single dots inside a path do not.  `fileName?`,
`fileStem?`, `parent?`, `join` and `withExtension` read and change a path by its parts, without
looking at any file.
-/

namespace Bindery

/-- The text that names a file. -/
structure Path where
  text : String
deriving DecidableEq, Repr, Inhabited

namespace Path

/-- The path begins at the root. -/
def isAbsolute (p : Path) : Bool :=
  p.text.toList.head? == some '/'

/-- The nonempty stretches between slashes. -/
def segments (p : Path) : List String :=
  ((Text.splitWhere (· == '/') p.text.toList).filter fun s => !s.isEmpty).map String.ofList

/-- The stretches that name something: all but single dots, of which only one at the start of
a relative path counts. -/
def parts (p : Path) : List String :=
  match p.segments with
  | [] => []
  | s :: ss =>
    let rest := ss.filter (· != ".")
    if s == "." && p.isAbsolute then rest else s :: rest

/-- The path with the given parts, from the root or not. -/
def ofParts (absolute : Bool) (parts : List String) : Path :=
  ⟨(if absolute then "/" else "") ++ "/".intercalate parts⟩

/-- The last part, if it is the name of a file. -/
def fileName? (p : Path) : Option String :=
  p.parts.getLast?.filter fun s => s != "." && s != ".."

/-- The last part if there is one, and the whole text if not. -/
def nameForReports (p : Path) : String :=
  p.fileName?.getD p.text

/-- The name of a file without what follows its last dot; a dot at the start does not count. -/
def stemOf (name : String) : String :=
  let beforeLast := (name.toList.reverse.dropWhile (· != '.')).drop 1
  if beforeLast.isEmpty then name else String.ofList beforeLast.reverse

/-- The file name without its extension. -/
def fileStem? (p : Path) : Option String :=
  p.fileName?.map stemOf

/-- The path without its last part. -/
def parent? (p : Path) : Option Path :=
  if p.parts.isEmpty then none else some (ofParts p.isAbsolute p.parts.dropLast)

/-- The second path as seen from the first; a path from the root stays as it is. -/
def join (p : Path) (name : String) : Path :=
  if (⟨name⟩ : Path).isAbsolute || p.text.isEmpty then ⟨name⟩
  else if p.text.toList.getLast? = some '/' then ⟨p.text ++ name⟩
  else ⟨p.text ++ "/" ++ name⟩

/-- The path with another extension in the place of what follows the last dot of its name. -/
def withExtension (p : Path) (extension : String) : Path :=
  match p.fileStem? with
  | none => p
  | some stem => ofParts p.isAbsolute (p.parts.dropLast ++ [stem ++ "." ++ extension])

end Path

end Bindery
