/-!
# Nested lists from flat levels

Paragraphs arrive with a level each, and the document wants properly nested lists.  An
`Outline` counts the lists that are open; `item` writes the markers that lead from the current
depth to the wanted one and then the item, `plain` writes ordinary content outside every list,
and `finish` closes what is open.  `emit` joins the first two: a level, or none.

Depths are compared as signed machine words, so a wanted depth of `2 ^ 63` or more reads as a
negative one (`signedWord`).  Taking one turn after another never leads there (see
`Outline.Turns`); `item` then only closes every list.
-/

namespace Bindery

/-- How many lists are open, and how many may be. -/
structure Outline where
  /-- The greatest number of open lists. -/
  maxDepth : Nat := 8
  /-- The number of open lists. -/
  opened : Nat := 0
deriving DecidableEq, Repr

namespace Outline

/-- The line that opens a list. -/
def openMarker : String := "\\begin\x7bitemize\x7d"

/-- The line that closes a list. -/
def closeMarker : String := "\\end\x7bitemize\x7d"

/-- The line of a list item. -/
def itemLine (text : String) : String := "\\item " ++ text

/-- An outline with no list open that opens at most `maxDepth` lists, and at least one. -/
def ofMaxDepth (maxDepth : Nat) : Outline :=
  { maxDepth := max maxDepth 1 }

/-- The number that the signed machine word with the same bits stands for. -/
def signedWord (n : Nat) : Int :=
  Int.bmod n UInt64.size

/-- The depth of the innermost open list, counted from zero; `-1` if no list is open. -/
def depth (o : Outline) : Int :=
  (o.opened : Int) - 1

/-- The depth at which an item of the given level is written: the level itself, but no deeper
than the outline allows. -/
def target (o : Outline) (level : Nat) : Int :=
  signedWord (min level (o.maxDepth - 1))

/-- Closes every open list. -/
def finish (o : Outline) : List String × Outline :=
  (List.replicate o.opened closeMarker, { o with opened := 0 })

/-- Writes content outside every list. -/
def plain (o : Outline) (text : String) : List String × Outline :=
  let (closing, o) := o.finish
  (closing ++ [text], o)

/-- Writes a list item at a level, opening or closing just the lists that are between the
current depth and the wanted one. -/
def item (o : Outline) (level : Nat) (text : String) : List String × Outline :=
  let toOpen := (o.target level - o.depth).toNat
  let toClose := min o.opened (o.depth - o.target level).toNat
  (List.replicate toOpen openMarker ++ List.replicate toClose closeMarker ++ [itemLine text],
    { o with opened := o.opened + toOpen - toClose })

/-- Writes an item if a level is given, and content outside every list if none is. -/
def emit (o : Outline) : Option Nat → String → List String × Outline
  | none, text => o.plain text
  | some level, text => o.item level text

end Outline

end Bindery
