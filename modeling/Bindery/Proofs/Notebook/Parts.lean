import Bindery.Notebook.Markdown
import Bindery.Proofs.Outline.Balance

/-!
# Parts of a markdown cell

A markdown cell consists of lines outside of fenced code, each with its reading, and of fenced code.
A line is a step of an outline, and so is the beginning of fenced code, while the code itself goes
past the outline.  The parts of a cell, written one after another, are what the cell is typeset to
(`markdown_eq`).
-/

namespace Bindery.Notebook

open Outline (Step)

/-- A part of a markdown cell. -/
inductive Part where
  /-- A line outside of fenced code. -/
  | line (l : MarkdownLine)
  /-- The fence that begins fenced code. -/
  | fence
  /-- The lines of fenced code, which is closed or ends with the cell. -/
  | code (lines : List (List Char))
deriving DecidableEq, Repr

/-- The parts of lines; `fence` holds the lines of code since a fence began, the latest first. -/
def partsFrom (fence : Option (List (List Char))) : List (List Char) → List Part
  | [] => fence.elim [] fun code => [.code code.reverse]
  | line :: lines =>
    if isFence line then
      match fence with
      | some code => .code code.reverse :: partsFrom none lines
      | none => .fence :: partsFrom (some []) lines
    else match fence with
      | some code => partsFrom (some (line :: code)) lines
      | none => .line (.of line) :: partsFrom none lines

/-- The parts of a markdown cell. -/
def parts (source : List Char) : List Part :=
  partsFrom none (Text.lines source)

/-- What a line asks of the outline. -/
def MarkdownLine.step : MarkdownLine → Step
  | blank => .plain ""
  | heading level text => .plain (headingLine level text)
  | item level text => .item level (String.ofList (inline text))
  | plain text => .plain (String.ofList (inline text))

/-- What a part asks of the outline. -/
def Part.step? : Part → Option Step
  | line l => some l.step
  | fence => some .finish
  | code _ => none

/-- The lines of a part that go past the outline. -/
def Part.aside : Part → List String
  | code lines => verbatim (Text.joinWith ['\n'] lines)
  | line _ | fence => []

/-- What is written for some parts, until all lists are closed. -/
def written (o : Outline) : List Part → List String
  | [] => o.finish.1
  | p :: ps =>
    (o.outputs p.step?.toList).flatten ++ p.aside ++ written (o.after p.step?.toList) ps

variable {o : Outline}

theorem perform_step (o : Outline) (l : MarkdownLine) :
  o.perform l.step = l.typeset o
  := by cases l <;> rfl

theorem written_line (o : Outline) (l : MarkdownLine) (ps : List Part) :
  written o (.line l :: ps) = (l.typeset o).1 ++ written (l.typeset o).2 ps
  := by
  rw [← perform_step]
  simp [written, Part.step?, Part.aside, Outline.outputs, Outline.after]

theorem written_fence (o : Outline) (ps : List Part) :
  written o (.fence :: ps) = o.finish.1 ++ written o.finish.2 ps
  := by simp [written, Part.step?, Part.aside, Outline.outputs, Outline.after, Outline.perform]

theorem written_code (o : Outline) (code : List (List Char)) (ps : List Part) :
  written o (.code code.reverse :: ps) = fenced code ++ written o ps
  := rfl

theorem markdownLines_eq (o : Outline) (fence : Option (List (List Char)))
    (lines : List (List Char)) :
  markdownLines o fence lines = written o (partsFrom fence lines)
  := by
  fun_induction markdownLines o fence lines with
  | case1 o fence => cases fence <;> rfl
  | case2 o line lines hfence code ih => rw [partsFrom, if_pos hfence, written_code, ih]
  | case3 o line lines hfence ih => rw [partsFrom, if_pos hfence, written_fence, ih]
  | case4 o line lines hfence code ih => rw [partsFrom, if_neg hfence, ih]
  | case5 o line lines hfence out o' htypeset ih =>
    rw [partsFrom, if_neg hfence, written_line, htypeset, ih]

/-- A markdown cell is typeset part by part. -/
theorem markdown_eq (source : List Char) :
  markdown source = written {} (parts source)
  := markdownLines_eq {} none (Text.lines source)

/-! ### What an outline writes for a cell -/

/-- What the outline is asked for in some parts. -/
def steps (ps : List Part) : List Step :=
  ps.filterMap Part.step? ++ [.finish]

/-- The lines that the outline writes for a markdown cell. -/
def outlined (source : List Char) : List String :=
  (({} : Outline).outputs (steps (parts source))).flatten

end Bindery.Notebook
