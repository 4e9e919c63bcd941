import Bindery.Outline

/-!
# Lists opened and closed in turns

An item leads to its depth in turns.  As long as the depth is too small, a list is opened, and
after that, as long as it is too great, the innermost list is closed.  To close a list changes
nothing if none is open, so that turns may go on without an end.  `emit?`, `item?`, `plain?` and
`finish?` are the steps of an outline taken in turns: they have an answer only if the turns end.
-/

namespace Bindery

/-- A loop takes another turn as long as its condition holds. -/
structure Loop (σ : Type) where
  condition : σ → Bool
  turn : σ → σ

/-- The first state that does not meet the condition.  There is none if the turns do not end. -/
def Loop.run? {σ : Type} (l : Loop σ) (state : σ) : Option σ :=
  if l.condition state then l |>.run? (l.turn state) else some state
partial_fixpoint

namespace Outline

/-- An outline in the course of a step. -/
structure Draft where
  outline : Outline
  /-- The lines written in this step, the latest first. -/
  written : List String := []
deriving DecidableEq, Repr

namespace Draft

/-- Opens a list. -/
def openList (d : Draft) : Draft where
  outline := { d.outline with opened := d.outline.opened + 1 }
  written := openMarker :: d.written

/-- Closes the innermost list, if one is open. -/
def closeList (d : Draft) : Draft :=
  if 0 < d.outline.opened then
    { outline := { d.outline with opened := d.outline.opened - 1 }
      written := closeMarker :: d.written }
  else d

/-- Lists are opened as long as the depth is less than the wanted one. -/
def opening (target : Int) : Loop Draft where
  condition d := d.outline.depth < target
  turn := openList

/-- Lists are closed as long as the depth is greater than the wanted one. -/
def closing (target : Int) : Loop Draft where
  condition d := target < d.outline.depth
  turn := closeList

/-- Lists are closed as long as any is open. -/
def closingAll : Loop Draft where
  condition d := 0 < d.outline.opened
  turn := closeList

/-- What was written, with some lines behind it, and the outline after it. -/
def finished (d : Draft) (lines : List String) : List String × Outline :=
  (d.written.reverse ++ lines, d.outline)

end Draft

/-- Closes every open list, in turns. -/
def finish? (o : Outline) : Option (List String × Outline) := do
  let d ← Draft.closingAll.run? { outline := o }
  return d.finished []

/-- Writes content outside every list, to which turns lead. -/
def plain? (o : Outline) (text : String) : Option (List String × Outline) := do
  let d ← Draft.closingAll.run? { outline := o }
  return d.finished [text]

/-- Writes a list item at a level, to which turns lead. -/
def item? (o : Outline) (level : Nat) (text : String) : Option (List String × Outline) := do
  let d ← (Draft.opening (o.target level)).run? { outline := o }
  let d ← (Draft.closing (o.target level)).run? d
  return d.finished [itemLine text]

/-- Writes an item if a level is given, and content outside every list if none is. -/
def emit? (o : Outline) : Option Nat → String → Option (List String × Outline)
  | none, text => o.plain? text
  | some level, text => o.item? level text

end Outline

end Bindery
