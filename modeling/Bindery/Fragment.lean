import Bindery.Text.Blank
import Bindery.Text.Lines

/-!
# Fragments

A `Fragment` is what one source contributes to the merged document: declaration lines for the
preamble and lines of content for the body.  `Fragment.ofMarkup` reads complete markup line by line
and splits it at the lines that begin with `beginDocument` and `endDocument`; what it splits the
lines into is said at once by `splitLines` (`ofMarkup_eq`).
-/

namespace Bindery

/-- The marker that ends the preamble. -/
def beginDocument : String := "\\begin\x7bdocument\x7d"

/-- The marker that ends the body. -/
def endDocument : String := "\\end\x7bdocument\x7d"

/-- A line whose text, after white space, begins with the marker that ends the preamble. -/
def opensDocument (line : List Char) : Bool :=
  beginDocument.toList.isPrefixOf (Text.trimStart line)

/-- A line whose text, after white space, begins with the marker that ends the body. -/
def closesDocument (line : List Char) : Bool :=
  endDocument.toList.isPrefixOf (Text.trimStart line)

theorem closesDocument_of_opensDocument {line : List Char} (h : opensDocument line = true) :
  closesDocument line = false
  := by
  obtain ⟨tail, htail⟩ := List.isPrefixOf_iff_prefix.mp h
  rw [closesDocument, ← htail]
  rfl

/-- A line that begins with one of the two markers. -/
def isBoundary (line : List Char) : Bool :=
  opensDocument line || closesDocument line

/-- The contribution of one source. -/
structure Fragment where
  /-- The name of the source, for diagnostics. -/
  origin : String
  /-- Declaration lines, in source order. -/
  preamble : List String := []
  /-- Lines of content, in source order. -/
  body : List String := []
deriving DecidableEq, Repr, Inhabited

namespace Fragment

/-- The fragment with one more declaration line. -/
def declare (f : Fragment) (line : String) : Fragment :=
  { f with preamble := f.preamble ++ [line] }

/-- The fragment with one more line of content. -/
def pushBody (f : Fragment) (line : String) : Fragment :=
  { f with body := f.body ++ [line] }

/-- All lines of a fragment, declarations first. -/
def allLines (f : Fragment) : List String :=
  f.preamble ++ f.body

/-- Reads the next lines of a source.  A line is a declaration in the preamble and content in the
body.  An opening marker ends the preamble, and a closing marker the document. -/
def read (f : Fragment) (inPreamble : Bool) : List (List Char) → Fragment
  | [] => f
  | line :: lines =>
    if opensDocument line then f.read false lines
    else if closesDocument line then f
    else if inPreamble then (f.declare (String.ofList line)).read inPreamble lines
    else (f.pushBody (String.ofList line)).read inPreamble lines

/-- The fragment of a source written in the document's own markup.  Without any opening marker, all
of it is content. -/
def ofMarkup (origin source : String) : Fragment :=
  let lines := Text.lines source.toList
  read { origin } (lines.any opensDocument) lines

/-! ### What is read -/

/-- The preamble and the body among the lines of a source.  Nothing from the first closing
marker on is kept and opening markers are dropped; without any opening marker, also after the
closing one, every kept line is content. -/
def splitLines (lines : List (List Char)) : List (List Char) × List (List Char) :=
  let kept := lines.takeWhile fun l => !closesDocument l
  if lines.any opensDocument then
    (kept.takeWhile fun l => !opensDocument l,
      (kept.dropWhile fun l => !opensDocument l).filter fun l => !opensDocument l)
  else ([], kept)

/-- In the body, all lines up to the first closing marker are content, but for opening markers. -/
theorem read_body (f : Fragment) (lines : List (List Char)) :
  f.read false lines = { f with
    body := f.body ++ ((lines.takeWhile fun l => !closesDocument l).filter
      fun l => !opensDocument l).map String.ofList }
  := by
  induction lines generalizing f with
  | nil => simp [read]
  | cons line lines ih =>
    rw [read]
    by_cases hopens : opensDocument line = true
    · have hcloses := closesDocument_of_opensDocument hopens
      simp [hopens, hcloses, ih]
    · by_cases hcloses : closesDocument line = true
      · simp [hopens, hcloses]
      · simp [hopens, hcloses, ih, pushBody]

/-- In the preamble, all lines up to the first marker are declarations. -/
theorem read_preamble (f : Fragment) (lines : List (List Char)) :
  let kept := lines.takeWhile fun l => !closesDocument l
  f.read true lines = { f with
    preamble := f.preamble ++ (kept.takeWhile fun l => !opensDocument l).map String.ofList
    body := f.body ++ ((kept.dropWhile fun l => !opensDocument l).filter
      fun l => !opensDocument l).map String.ofList }
  := by
  induction lines generalizing f with
  | nil => simp [read]
  | cons line lines ih =>
    rw [read]
    by_cases hopens : opensDocument line = true
    · have hcloses := closesDocument_of_opensDocument hopens
      simp [hopens, hcloses, read_body]
    · by_cases hcloses : closesDocument line = true
      · simp [hopens, hcloses]
      · simp [hopens, hcloses, ih, declare]

theorem ofMarkup_eq (origin source : String) :
  let split := splitLines (Text.lines source.toList)
  ofMarkup origin source
    = { origin, preamble := split.1.map String.ofList, body := split.2.map String.ofList }
  := by
  dsimp only [ofMarkup, splitLines]
  generalize Text.lines source.toList = lines
  by_cases hopens : lines.any opensDocument = true
  · rw [hopens, read_preamble, if_pos rfl]
    rfl
  · have hnone : ∀ line ∈ lines.takeWhile fun l => !closesDocument l,
        (!opensDocument line) = true := by
      intro line hline
      have hmem := (List.takeWhile_sublist _).subset hline
      rw [Bool.not_eq_true, List.any_eq_false] at hopens
      simpa using hopens line hmem
    rw [Bool.not_eq_true] at hopens
    rw [hopens, read_body, List.filter_eq_self.mpr hnone, if_neg Bool.false_ne_true]
    rfl

end Fragment

end Bindery
