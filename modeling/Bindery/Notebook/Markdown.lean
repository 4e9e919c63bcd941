import Bindery.Escape
import Bindery.Notebook.Inline
import Bindery.Outline
import Bindery.Text.Blank
import Bindery.Text.Digit
import Bindery.Text.Lines
import Bindery.Text.Replace

/-!
# Markdown cells

A line of markdown outside fenced code is blank, a heading, a list item or plain text
(`MarkdownLine.of`).  `markdown` typesets a cell: headings become sections, items are nested by
their indentation, and fenced code is set verbatim.  `verbatim` sets a text as it is, line by line,
between two markers.  A marker inside the text would end the block, so it is taken apart; control
characters are dropped.
-/

namespace Bindery.Notebook

/-! ### Verbatim blocks -/

/-- The line that begins a verbatim block. -/
def verbatimBegin : String := "\\begin\x7bverbatim\x7d"

/-- The line that ends a verbatim block. -/
def verbatimEnd : String := "\\end\x7bverbatim\x7d"

/-- The end marker taken apart. -/
def verbatimEndApart : String := "\\end \x7bverbatim\x7d"

/-- A line inside a verbatim block. -/
def verbatimLine (line : List Char) : List Char :=
  Text.replace verbatimEnd.toList verbatimEndApart.toList (Escape.stripControls line)

/-- The verbatim block of a text; a blank text has none. -/
def verbatim (text : List Char) : List String :=
  if Text.isBlankText text then []
  else
    verbatimBegin :: (Text.lines text).map (String.ofList ∘ verbatimLine) ++ [verbatimEnd]

/-! ### Markdown -/

/-- A line of markdown outside fenced code. -/
inductive MarkdownLine where
  | blank
  | heading (level : Nat) (text : List Char)
  /-- A list item, nested so deep. -/
  | item (level : Nat) (text : List Char)
  | plain (text : List Char)
deriving DecidableEq, Repr

namespace MarkdownLine

/-- Nothing of a heading is left: only white space, or a run of number signs after white space
and perhaps more white space. -/
def closesHeading (rest : List Char) : Bool :=
  let text := (Text.trimEnd rest).reverse
  let before := text.dropWhile (· == '#')
  text.isEmpty || (before.length < text.length && !before.isEmpty && Text.isBlankText before)

/-- The text of a heading before its end. -/
def headingText : List Char → List Char
  | [] => []
  | c :: cs => if closesHeading (c :: cs) then [] else c :: headingText cs

/-- The heading on a line: one to six number signs, white space and a text. -/
def heading? (line : List Char) : Option MarkdownLine :=
  let marks := line.takeWhile (· == '#')
  let rest := line.dropWhile (· == '#')
  if 1 ≤ marks.length && marks.length ≤ 6 && rest.head?.any Text.isBlank then
    some (.heading marks.length (headingText (Text.trimStart rest)))
  else none

/-- The width of an indentation, in which a tab counts as four blanks. -/
def indentWidth (indent : List Char) : Nat :=
  indent.foldl (fun n c => n + if c = '\t' then 4 else 1) 0

/-- What follows the mark of a list item: one of three signs, or a number and a full stop or
parenthesis. -/
def afterMark? : List Char → Option (List Char)
  | [] => none
  | c :: cs =>
    if c = '-' || c = '*' || c = '+' then some cs
    else if Text.isDigit c then
      match cs.dropWhile Text.isDigit with
      | '.' :: rest => some rest
      | ')' :: rest => some rest
      | _ => none
    else none

/-- The list item on a line: an indentation, a mark, white space and a text. -/
def item? (line : List Char) : Option MarkdownLine :=
  let isIndent (c : Char) : Bool := c == ' ' || c == '\t'
  match afterMark? (line.dropWhile isIndent) with
  | none => none
  | some rest =>
    if rest.head?.any Text.isBlank then
      some (.item (indentWidth (line.takeWhile isIndent) / 2) (Text.trimStart rest))
    else none

/-- The reading of a line. -/
def of (line : List Char) : MarkdownLine :=
  if Text.isBlankText line then .blank
  else (heading? line <|> item? line).getD (.plain (Text.trim line))

end MarkdownLine

/-- A line that begins or ends fenced code. -/
def isFence (line : List Char) : Bool :=
  ['\x60', '\x60', '\x60'].isPrefixOf (Text.trimStart line)

/-- The command of a heading. -/
def headingCommand : Nat → String
  | 1 => "section"
  | 2 => "subsection"
  | _ => "subsubsection"

/-- The line of a heading. -/
def headingLine (level : Nat) (text : List Char) : String :=
  "\\" ++ headingCommand level ++ "*\x7b" ++ String.ofList (inline text) ++ "\x7d"

/-- Typesets a line outside fenced code. -/
def MarkdownLine.typeset (o : Outline) : MarkdownLine → List String × Outline
  | blank =>
    let (closing, o) := o.finish
    (closing ++ [""], o)
  | heading level text =>
    let (closing, o) := o.finish
    (closing ++ [headingLine level text], o)
  | item level text => o.item level (String.ofList (inline text))
  | plain text => o.plain (String.ofList (inline text))

/-- The verbatim block of code lines, of which the latest comes first. -/
def fenced (code : List (List Char)) : List String :=
  verbatim (Text.joinWith ['\n'] code.reverse)

/-- Typesets lines inside lists that are open; `fence` holds the lines of code since a fence
began, the latest first.  Code that is not closed ends with the cell. -/
def markdownLines (o : Outline) (fence : Option (List (List Char))) :
    List (List Char) → List String
  | [] => fence.elim [] fenced ++ o.finish.1
  | line :: lines =>
    if isFence line then
      match fence with
      | some code => fenced code ++ markdownLines o none lines
      | none => o.finish.1 ++ markdownLines o.finish.2 (some []) lines
    else match fence with
      | some code => markdownLines o (some (line :: code)) lines
      | none =>
        let (out, o) := (MarkdownLine.of line).typeset o
        out ++ markdownLines o none lines

/-- The body lines of a markdown cell. -/
def markdown (source : List Char) : List String :=
  markdownLines {} none (Text.lines source)

end Bindery.Notebook
