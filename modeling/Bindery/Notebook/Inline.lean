import Bindery.Escape
import Bindery.Text.Blank
import Bindery.Text.Replace

/-!
# Spans in a line of markdown

`inline` typesets a line of markdown: it escapes the text and then turns code spans, bold spans
and italic spans, in this order, into commands.  A `Span` is a kind of span: its delimiter, its
command, and what it takes from the text after an opening delimiter.
-/

namespace Bindery.Notebook

/-- A kind of span. -/
structure Span where
  /-- The text on both sides of the span. -/
  delimiter : List Char
  command : List Char
  /-- The content of the span, given the text after its opening delimiter. -/
  content? : List Char → Option (List Char)

namespace Span

/-- The span at the start of a text, and what stands for it. -/
def find (s : Span) (text : List Char) : Option (Nat × List Char) :=
  if s.delimiter.isPrefixOf text then
    (s.content? (text.drop s.delimiter.length)).map fun content =>
      (content.length + 2 * s.delimiter.length, '\\' :: s.command ++ '{' :: content ++ ['}'])
  else none

/-- The text with every span turned into a command. -/
def convert (s : Span) (text : List Char) : List Char :=
  Text.replaceWhere s.find 0 text

/-- The text before the next character `c`, if there is one. -/
def before? (c : Char) (text : List Char) : Option (List Char) :=
  if text.contains c then some (text.takeWhile (· != c)) else none

/-- The text before the next two asterisks on the line. -/
def beforeStars? : List Char → Option (List Char)
  | '*' :: '*' :: _ => some []
  | c :: cs => if c = '\n' then none else (beforeStars? cs).map (c :: ·)
  | [] => none

/-- Text between backticks. -/
def code : Span where
  delimiter := ['\x60']
  command := "texttt".toList
  content? text := (before? '\x60' text).filter fun content => !content.isEmpty

/-- Text between two asterisks and the next two. -/
def bold : Span where
  delimiter := ['*', '*']
  command := "textbf".toList
  content?
    | [] => none
    | c :: cs => if c = '\n' then none else (beforeStars? cs).map (c :: ·)

/-- Text between asterisks that does not begin with white space. -/
def italic : Span where
  delimiter := ['*']
  command := "textit".toList
  content? text :=
    (before? '*' text).filter fun content => content.head?.any fun c => !Text.isBlank c

end Span

/-- The typeset form of a line of markdown. -/
def inline (text : List Char) : List Char :=
  Escape.smartQuotes
    (Span.italic.convert (Span.bold.convert (Span.code.convert (Escape.escape text))))

end Bindery.Notebook
