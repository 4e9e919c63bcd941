
/-!
# Literal text in a typeset document

`escape` replaces the characters that the typesetter reserves, each by the one spelling that
`replacement?` gives it, and drops the control characters that `isStripped` names;
`stripControls` only drops them.  `smartQuotes` spells typographic double quotes as the
ligatures that print them.  `reserved` lists the replaced characters.
-/

namespace Bindery.Escape

/-- The control characters that are removed: all below space but tab and line feed, and delete. -/
def isStripped (c : Char) : Bool :=
  c ≤ '\x08' || ('\x0b' ≤ c && c ≤ '\x1f') || c == '\x7f'

/-- The spelling that prints a reserved character, or `none` if the character prints itself. -/
def replacement? : Char → Option String
  | '&' => some "\\&"
  | '%' => some "\\%"
  | '$' => some "\\$"
  | '#' => some "\\#"
  | '_' => some "\\_"
  | '{' => some "\\\x7b"
  | '}' => some "\\\x7d"
  | '~' => some "\\textasciitilde\x7b\x7d"
  | '^' => some "\\^\x7b\x7d"
  | '\\' => some "\\textbackslash\x7b\x7d"
  | '<' => some "\\textless\x7b\x7d"
  | '>' => some "\\textgreater\x7b\x7d"
  | '|' => some "\\textbar\x7b\x7d"
  | _ => none

/-- The reserved characters. -/
def reserved : List Char :=
  ['&', '%', '$', '#', '_', '{', '}', '~', '^', '\\', '<', '>', '|']

/-- What stands for one character in escaped text. -/
def escapeChar (c : Char) : List Char :=
  if isStripped c then []
  else match replacement? c with
    | some spelling => spelling.toList
    | none => [c]

/-- The text as literal content: reserved characters are spelled out, control characters go. -/
def escape (cs : List Char) : List Char :=
  cs.flatMap escapeChar

/-- The text without control characters, for places where reserved characters are literal. -/
def stripControls (cs : List Char) : List Char :=
  cs.filter fun c => !isStripped c

/-- What stands for one character once double quotes are spelled as ligatures. -/
def quoteChar : Char → List Char
  | '\u201c' => ['\x60', '\x60']
  | '\u201d' => ['\x27', '\x27']
  | '\u201e' => [',', ',']
  | c => [c]

/-- The text with typographic double quotes spelled as ligatures. -/
def smartQuotes (cs : List Char) : List Char :=
  cs.flatMap quoteChar

theorem escape_append (a b : List Char) :
  escape (a ++ b) = escape a ++ escape b
  := List.flatMap_append

theorem smartQuotes_append (a b : List Char) :
  smartQuotes (a ++ b) = smartQuotes a ++ smartQuotes b
  := List.flatMap_append

/-- A character is reserved exactly when it has a spelling of its own. -/
theorem mem_reserved_iff {c : Char} :
  c ∈ reserved ↔ (replacement? c).isSome
  := by
  constructor
  · intro h
    simp only [reserved, List.mem_cons, List.not_mem_nil, or_false] at h
    rcases h with rfl | rfl | rfl | rfl | rfl | rfl | rfl | rfl | rfl | rfl | rfl | rfl | rfl <;>
      rfl
  · intro h
    unfold replacement? at h
    split at h <;> simp_all [reserved]

end Bindery.Escape
