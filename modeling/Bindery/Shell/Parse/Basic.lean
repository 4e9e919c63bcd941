import Bindery.Shell.Script

/-!
# Reading scripts

A `Parse` reads from the text of a script and may fail.  Here are the characters that mean
something, the blanks, line breaks and separators that are read over, and the tokens by which
commands are told apart; how far an expression, a script in backticks and a document below its
command reach; and which characters mean something in a stretch of text (`Stop`) that ends in one
way or another.
-/

namespace Bindery.Shell

/-- Reads from the text of a script. -/
abbrev Parse (α : Type) : Type :=
  StateT (List Char) Option α

namespace Parse

/-! ### Characters -/

/-- The characters of names. -/
def isNameChar (c : Char) : Bool :=
  c.isAlphanum || c == '_'

/-- A name of a variable. -/
def isName (cs : List Char) : Bool :=
  cs.all isNameChar && cs.head?.any fun c => !c.isDigit

/-- The characters that end a word unless they are quoted. -/
def isMeta (c : Char) : Bool :=
  c == ' ' || c == '\t' || c == '\n' || c == ';' || c == '&' || c == '|' || c == '<' || c == '>'
    || c == '(' || c == ')'

/-- The text from the next token on; line breaks are tokens. -/
def dropBlanks : List Char → List Char
  | [] => []
  | '\\' :: '\n' :: cs => dropBlanks cs
  | c :: cs =>
    if c = ' ' || c = '\t' then dropBlanks cs
    else if c = '#' then (c :: cs).dropWhile (· != '\n')
    else c :: cs

/-- The text from the next token on that is no separator. -/
def dropSeparators : Nat → List Char → List Char
  | 0, cs => cs
  | fuel + 1, cs =>
    match dropBlanks cs with
    | '\n' :: rest => dropSeparators fuel rest
    | ';' :: ';' :: rest => ';' :: ';' :: rest
    | ';' :: rest => dropSeparators fuel rest
    | rest => rest

/-- The text from the next token on that is no line break. -/
def dropLineBreaks : Nat → List Char → List Char
  | 0, cs => cs
  | fuel + 1, cs =>
    match dropBlanks cs with
    | '\n' :: rest => dropLineBreaks fuel rest
    | rest => rest

/-- Goes on to the next token. -/
def blanks : Parse Unit :=
  modify dropBlanks

/-- Goes on to the next token that is no line break. -/
def lineBreaks : Parse Unit :=
  modify fun cs => dropLineBreaks (cs.length + 1) cs

/-- Goes on to the next token that is no separator. -/
def separators : Parse Unit :=
  modify fun cs => dropSeparators (cs.length + 1) cs

/-- Takes the given text, if it comes next. -/
def skip? (text : String) : Parse Bool := do
  let cs ← get
  if text.toList.isPrefixOf cs then
    set (cs.drop text.toList.length)
    return true
  else return false

/-- Takes the given text, which has to come next. -/
def expect (text : String) : Parse Unit := do
  if !(← skip? text) then failure

/-- Takes characters as long as they satisfy a condition. -/
def span (p : Char → Bool) : Parse (List Char) := do
  let cs ← get
  set (cs.dropWhile p)
  return cs.takeWhile p

/-- The next token, if it is made of ordinary characters. -/
def token : Parse (List Char) := do
  return (← get).takeWhile fun c => !isMeta c

/-- Takes a reserved word, which has to come next. -/
def reserved (word : String) : Parse Unit := do
  blanks
  if (← token) = word.toList then expect word else failure

/-- The words that end a list of commands. -/
def endsList (word : List Char) : Bool :=
  ["then", "elif", "else", "fi", "do", "done", "esac", "\x7d"].any fun w => w.toList == word

/-! ### Quoted and nested text -/

/-- The text up to two closing parentheses that match two which are open, and what follows. -/
def arithmeticText? : Nat → List Char → Option (List Char × List Char)
  | _, [] => none
  | 0, ')' :: ')' :: rest => some ([], rest)
  | depth, c :: rest =>
    let depth := if c = '(' then depth + 1 else if c = ')' then depth - 1 else depth
    (arithmeticText? depth rest).map fun (text, rest) => (c :: text, rest)

/-- The text up to the next backtick that is not escaped, without its escapes, and what
follows. -/
def backtickText? : List Char → Option (List Char × List Char)
  | [] => none
  | '\x60' :: rest => some ([], rest)
  | '\\' :: c :: rest =>
    (backtickText? rest).map fun (text, rest) =>
      if c = '$' || c = '\x60' || c = '\\' then (c :: text, rest) else ('\\' :: c :: text, rest)
  | c :: rest => (backtickText? rest).map fun (text, rest) => (c :: text, rest)

/-- The lines up to a delimiter, and what follows it. -/
def hereText (delimiter : List Char) (dropTabs : Bool) : Nat → List Char → List Char × List Char
  | 0, cs => ([], cs)
  | fuel + 1, cs =>
    let cs := if dropTabs then cs.dropWhile (· == '\t') else cs
    let line := cs.takeWhile (· != '\n')
    let rest := (cs.dropWhile (· != '\n')).drop 1
    if line = delimiter || cs.isEmpty then ([], rest)
    else
      let (text, rest) := hereText delimiter dropTabs fuel rest
      (line ++ '\n' :: text, rest)

/-- The parameters with a name of one character that is no letter. -/
def isSpecial (c : Char) : Bool :=
  c.isDigit || c == '@' || c == '*' || c == '#' || c == '?' || c == '-' || c == '$' || c == '!'

/-- Reads what is done to a parameter inside braces. -/
def change : Parse Change := do
  if ← skip? "%%" then return .withoutEnd true
  else if ← skip? "%" then return .withoutEnd false
  else if ← skip? "##" then return .withoutStart true
  else if ← skip? "#" then return .withoutStart false
  else
    let orEmpty ← skip? ":"
    if ← skip? "-" then return .default orEmpty
    else if ← skip? "=" then return .assign orEmpty
    else if ← skip? "?" then return .demand orEmpty
    else if ← skip? "+" then return .alternative orEmpty
    else failure

/-- Reads the name of a parameter. -/
def parameterName : Parse (List Char) := do
  match ← get with
  | [] => failure
  | c :: cs =>
    if isSpecial c && !c.isDigit then
      set cs
      return [c]
    else
      let name ← span isNameChar
      if name.isEmpty then failure else return name

/-- What ends a stretch of text. -/
inductive Stop where
  /-- A double quote. -/
  | quote
  /-- A closing brace. -/
  | brace
  /-- The end of the text. -/
  | never
  /-- A character that ends words. -/
  | word
deriving DecidableEq, Repr

/-- The character ends the stretch. -/
def Stop.isAt (s : Stop) (c : Char) : Bool :=
  match s with
  | quote => c == '\x22'
  | brace => c == '}'
  | never => false
  | word => isMeta c

/-- Characters that need no further look inside a stretch. -/
def isPlain (s : Stop) (c : Char) : Bool :=
  !s.isAt c && c != '$' && c != '\x60' && c != '\\' && c != '\x22' && c != '\x27'

/-- A quotation character that means itself where it stands. -/
def isLiteralQuote (isQuoted : Bool) (stop : Stop) (c : Char) : Bool :=
  isQuoted && (c == '\x27' || (c == '\x22' && stop != .brace))

/-- A backslash inside double quotes and the character after it. -/
def quotedEscape (c : Char) : List Char :=
  if c = '$' || c = '\x60' || c = '\x22' || c = '\\' then [c]
  else if c = '\n' then []
  else ['\\', c]

/-- What stands between quotes is just the list of arguments, which may be empty. -/
def isAllArguments : Word → Bool
  | [.parameter ['@'] .asIs _ _] => true
  | _ => false

end Parse

end Bindery.Shell
