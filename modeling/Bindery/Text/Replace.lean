/-!
# Replacing stretches of a text

`replaceWhere` goes through a text from left to right and replaces stretches that it finds; what it
has replaced is not looked at again.  `replace` replaces every occurrence of a text.
-/

namespace Bindery.Text

/-- The text with stretches replaced.  At each place `find` may give the length of a stretch,
which is at least one, and what stands for it; `skip` characters belong to the last stretch. -/
def replaceWhere (find : List Char → Option (Nat × List Char)) : Nat → List Char → List Char
  | _, [] => []
  | skip + 1, _ :: cs => replaceWhere find skip cs
  | 0, c :: cs =>
    match find (c :: cs) with
    | some (length, new) => new ++ replaceWhere find (length - 1) cs
    | none => c :: replaceWhere find 0 cs

/-- The text with every occurrence of `old` replaced by `new`. -/
def replace (old new : List Char) (cs : List Char) : List Char :=
  replaceWhere (fun rest => if old.isPrefixOf rest then some (old.length, new) else none) 0 cs

end Bindery.Text
