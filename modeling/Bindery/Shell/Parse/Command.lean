import Bindery.Shell.Parse.Basic

/-!
# Words and commands

`word` reads a word and `command` a command, each of which can hold the other.  Reading is nested
as deep as the script is.  A nested command or part takes a character at least, and there are
fewer than eight steps from one to the next, so the length of the script bounds the depth.
-/

namespace Bindery.Shell.Parse

/-- The line on which a command stands: the text has so many lines below it. -/
def lineOf (lines : Nat) (rest : List Char) : Nat :=
  lines + 1 - rest.count '\n'

/-- The name and the value of an assignment, if a word begins like one. -/
def assignment? (w : Word) : Option (List Char × Word) :=
  match w with
  | .text cs false :: rest =>
    let name := cs.takeWhile (· != '=')
    if isName name && name.length < cs.length then
      let value := cs.drop (name.length + 1)
      some (name, if value.isEmpty then rest else .text value false :: rest)
    else none
  | _ => none

/-- The text of a word without expansions. -/
def plainText (w : Word) : List Char :=
  w.flatMap fun part =>
    match part with
    | .text cs _ => cs
    | _ => []

/-- Takes the text of a document that stands below the line. -/
def hereDocument (delimiter : List Char) (dropTabs : Bool) : Parse (List Char) := do
  let cs ← get
  let line := cs.takeWhile (· != '\n')
  let below := (cs.dropWhile (· != '\n')).drop 1
  let (text, rest) := hereText delimiter dropTabs (below.length + 1) below
  set (line ++ '\n' :: rest)
  return text

mutual

/-- Reads what follows a dollar sign. -/
def dollar (lines : Nat) : Nat → Bool → Parse Part
  | 0, _ => failure
  | fuel + 1, isQuoted => do
    match ← get with
    | '(' :: '(' :: rest =>
      let (text, rest) ← arithmeticText? 0 rest
      set text
      let expression ← stretch lines fuel true .never
      set rest
      return .arithmetic expression isQuoted
    | '(' :: rest =>
      set rest
      let script ← commands lines fuel
      blanks
      expect ")"
      return .output script isQuoted
    | '{' :: '#' :: rest =>
      set rest
      if ← skip? "\x7d" then return .parameter ['#'] .asIs [] isQuoted
      else
        let name ← parameterName
        expect "\x7d"
        return .parameter name .length [] isQuoted
    | '{' :: rest =>
      set rest
      let name ← parameterName
      if ← skip? "\x7d" then return .parameter name .asIs [] isQuoted
      else
        let change ← change
        let word ← stretch lines fuel isQuoted .brace
        expect "\x7d"
        return .parameter name change word isQuoted
    | c :: rest =>
      if isSpecial c then
        set rest
        return .parameter [c] .asIs [] isQuoted
      else
        let name ← span isNameChar
        if name.isEmpty then return .text ['$'] isQuoted
        else return .parameter name .asIs [] isQuoted
    | [] => return .text ['$'] isQuoted

/-- Reads a stretch of text, up to what ends it. -/
def stretch (lines : Nat) : Nat → Bool → Stop → Parse Word
  | 0, _, _ => failure
  | fuel + 1, isQuoted, stop => do
    match ← get with
    | [] => if stop = .quote || stop = .brace then failure else return []
    | c :: rest =>
      if stop.isAt c then return []
      else if c = '$' then
        set rest
        let part ← dollar lines fuel isQuoted
        return part :: (← stretch lines fuel isQuoted stop)
      else if c = '\x60' then
        let (text, rest) ← backtickText? rest
        set text
        let script ← commands lines fuel
        set rest
        return .output script isQuoted :: (← stretch lines fuel isQuoted stop)
      else if c = '\\' then
        match rest with
        | [] => return [.text ['\\'] isQuoted]
        | d :: rest =>
          set rest
          let text := if isQuoted then quotedEscape d else if d = '\n' then [] else [d]
          return .text text true :: (← stretch lines fuel isQuoted stop)
      else if isLiteralQuote isQuoted stop c then
        set rest
        return .text [c] true :: (← stretch lines fuel isQuoted stop)
      else if c = '\x27' then
        let text := rest.takeWhile (· != '\x27')
        if text.length = rest.length then failure
        else
          set (rest.drop (text.length + 1))
          return .text text true :: (← stretch lines fuel isQuoted stop)
      else if c = '\x22' then
        set rest
        let parts ← stretch lines fuel true .quote
        expect "\""
        let parts := if isAllArguments parts then parts else .text [] true :: parts
        return parts ++ (← stretch lines fuel isQuoted stop)
      else
        let text ← span (isPlain stop)
        return .text text isQuoted :: (← stretch lines fuel isQuoted stop)

/-- Reads a word. -/
def word (lines : Nat) : Nat → Parse Word
  | 0 => failure
  | fuel + 1 => do
    let parts ← stretch lines fuel false .word
    if parts.isEmpty then failure else return parts

/-- Reads a redirection after its number. -/
def redirection (lines : Nat) : Nat → Option Nat → Parse Redirection
  | 0, _ => failure
  | fuel + 1, number => do
    if ← skip? "<<" then
      let dropTabs ← skip? "-"
      blanks
      let delimiter ← word lines fuel
      let text ← hereDocument (plainText delimiter) dropTabs
      let isLiteral := delimiter.any fun part =>
        match part with
        | .text _ isQuoted => isQuoted
        | _ => false
      if isLiteral then return .text (number.getD 0) [.text text true]
      else
        let rest ← get
        set text
        let content ← stretch lines fuel true .never
        set rest
        return .text (number.getD 0) content
    else if ← skip? "<&" then
      blanks
      return .same (number.getD 0) (← word lines fuel)
    else if ← skip? ">&" then
      blanks
      return .same (number.getD 1) (← word lines fuel)
    else if ← skip? ">>" then
      blanks
      return .file (number.getD 1) .atEnd (← word lines fuel)
    else if ← skip? ">|" then
      blanks
      return .file (number.getD 1) .emptied (← word lines fuel)
    else if ← skip? "<" then
      blanks
      return .file (number.getD 0) .reading (← word lines fuel)
    else if ← skip? ">" then
      blanks
      return .file (number.getD 1) .emptied (← word lines fuel)
    else failure

/-- Reads the redirection that comes next, if one does. -/
def redirection? (lines : Nat) : Nat → Parse (Option Redirection)
  | 0 => failure
  | fuel + 1 => do
    blanks
    let cs ← get
    let digits := cs.takeWhile Char.isDigit
    match cs.drop digits.length with
    | c :: _ =>
      if c = '<' || c = '>' then
        set (cs.drop digits.length)
        let number := (String.ofList digits).toNat?
        return some (← redirection lines fuel number)
      else return none
    | [] => return none

/-- Reads all redirections that come next. -/
def redirections (lines : Nat) : Nat → Parse (List Redirection)
  | 0 => failure
  | fuel + 1 => do
    match ← redirection? lines fuel with
    | none => return []
    | some r => return r :: (← redirections lines fuel)

/-- Reads the words and redirections of a simple command. -/
def simpleParts (lines : Nat) :
    Nat → Parse (List (List Char × Word) × List Word × List Redirection)
  | 0 => failure
  | fuel + 1 => do
    match ← redirection? lines fuel with
    | some r =>
      let (assignments, words, rs) ← simpleParts lines fuel
      return (assignments, words, r :: rs)
    | none =>
      match ← get with
      | [] => return ([], [], [])
      | c :: _ =>
        if isMeta c then return ([], [], [])
        else
          let w ← word lines fuel
          match assignment? w with
          | some a =>
            let (assignments, words, rs) ← simpleParts lines fuel
            return (a :: assignments, words, rs)
          | none =>
            let (words, rs) ← argumentParts lines fuel
            return ([], w :: words, rs)

/-- Reads the words and redirections after the first word of a simple command. -/
def argumentParts (lines : Nat) : Nat → Parse (List Word × List Redirection)
  | 0 => failure
  | fuel + 1 => do
    match ← redirection? lines fuel with
    | some r =>
      let (words, rs) ← argumentParts lines fuel
      return (words, r :: rs)
    | none =>
      match ← get with
      | [] => return ([], [])
      | c :: _ =>
        if isMeta c then return ([], [])
        else
          let w ← word lines fuel
          let (words, rs) ← argumentParts lines fuel
          return (w :: words, rs)

/-- Reads the branches of a choice, from the first condition on. -/
def branches (lines : Nat) : Nat → Parse (List (Script × Script) × Script)
  | 0 => failure
  | fuel + 1 => do
    let condition ← commands lines fuel
    reserved "then"
    let body ← commands lines fuel
    blanks
    let next ← token
    if next = "elif".toList then
      expect "elif"
      let (others, otherwise) ← branches lines fuel
      return ((condition, body) :: others, otherwise)
    else if next = "else".toList then
      expect "else"
      let otherwise ← commands lines fuel
      reserved "fi"
      return ([(condition, body)], otherwise)
    else
      reserved "fi"
      return ([(condition, body)], [])

/-- Reads the words of a loop. -/
def loopWords (lines : Nat) : Nat → Parse (List Word)
  | 0 => failure
  | fuel + 1 => do
    blanks
    match ← get with
    | [] => return []
    | c :: _ =>
      if isMeta c then return []
      else
        let w ← word lines fuel
        return w :: (← loopWords lines fuel)

/-- Reads the patterns of an arm. -/
def armPatterns (lines : Nat) : Nat → Parse (List Word)
  | 0 => failure
  | fuel + 1 => do
    blanks
    let w ← word lines fuel
    blanks
    if ← skip? "|" then return w :: (← armPatterns lines fuel)
    else
      expect ")"
      return [w]

/-- Reads the arms of a selection. -/
def arms (lines : Nat) : Nat → Parse (List (List Word × Script))
  | 0 => failure
  | fuel + 1 => do
    separators
    if (← token) = "esac".toList then
      expect "esac"
      return []
    else
      let _ ← skip? "("
      let patterns ← armPatterns lines fuel
      let body ← commands lines fuel
      blanks
      if ← skip? ";;" then return (patterns, body) :: (← arms lines fuel)
      else
        separators
        reserved "esac"
        return [(patterns, body)]

/-- Reads a command without its redirections. -/
def command (lines : Nat) : Nat → Parse Command
  | 0 => failure
  | fuel + 1 => do
    blanks
    let next ← token
    let line := lineOf lines (← get)
    if next = "if".toList then
      expect "if"
      let (branches, otherwise) ← branches lines fuel
      return .choice branches otherwise
    else if next = "while".toList || next = "until".toList then
      set ((← get).drop 5)
      let condition ← commands lines fuel
      reserved "do"
      let body ← commands lines fuel
      reserved "done"
      return .loop (next = "until".toList) condition body
    else if next = "for".toList then
      expect "for"
      blanks
      let name ← span isNameChar
      lineBreaks
      let words ← if (← token) = "in".toList then
          expect "in"
          some <$> loopWords lines fuel
        else pure none
      separators
      reserved "do"
      let body ← commands lines fuel
      reserved "done"
      return .each name words body
    else if next = "case".toList then
      expect "case"
      blanks
      let w ← word lines fuel
      lineBreaks
      reserved "in"
      return .select w (← arms lines fuel)
    else if next = "\x7b".toList then
      expect "\x7b"
      let body ← commands lines fuel
      reserved "\x7d"
      return .group body
    else if ← skip? "(" then
      let body ← commands lines fuel
      blanks
      expect ")"
      return .subshell body
    else if endsList next then failure
    else if isName next && "()".toList.isPrefixOf (dropBlanks ((← get).drop next.length)) then
      set ((dropBlanks ((← get).drop next.length)).drop 2)
      lineBreaks
      return .define next (← command lines fuel)
    else
      let (assignments, words, rs) ← simpleParts lines fuel
      if assignments.isEmpty && words.isEmpty && rs.isEmpty then failure
      else if rs.isEmpty then return .simple line assignments words
      else return .redirected (.simple line assignments words) rs

/-- Reads the commands of a pipeline. -/
def pipelineCommands (lines : Nat) : Nat → Parse (List Command)
  | 0 => failure
  | fuel + 1 => do
    let c ← command lines fuel
    let rs ← redirections lines fuel
    let c := if rs.isEmpty then c else .redirected c rs
    blanks
    match ← get with
    | '|' :: '|' :: _ => return [c]
    | '|' :: rest =>
      set rest
      lineBreaks
      return c :: (← pipelineCommands lines fuel)
    | _ => return [c]

/-- Reads a pipeline, which may be negated. -/
def pipeline (lines : Nat) : Nat → Parse Command
  | 0 => failure
  | fuel + 1 => do
    blanks
    if (← token) = ['!'] then
      expect "!"
      return .negated (← pipeline lines fuel)
    else
      match ← pipelineCommands lines fuel with
      | [c] => return c
      | cs => return .pipeline cs

/-- Reads pipelines that are joined by their success or failure to what comes first. -/
def joined (lines : Nat) : Nat → Command → Parse Command
  | 0, _ => failure
  | fuel + 1, first => do
    blanks
    if ← skip? "&&" then
      lineBreaks
      let second ← pipeline lines fuel
      joined lines fuel (.andThen first second)
    else if ← skip? "||" then
      lineBreaks
      let second ← pipeline lines fuel
      joined lines fuel (.orElse first second)
    else return first

/-- Reads a command up to its separator. -/
def listItem (lines : Nat) : Nat → Parse Command
  | 0 => failure
  | fuel + 1 => do
    let first ← pipeline lines fuel
    let c ← joined lines fuel first
    blanks
    match ← get with
    | '&' :: rest =>
      set rest
      return .background c
    | _ => return c

/-- Reads commands up to a word that ends a list. -/
def commands (lines : Nat) : Nat → Parse Script
  | 0 => failure
  | fuel + 1 => do
    separators
    match ← get with
    | [] => return []
    | ')' :: _ => return []
    | ';' :: _ => return []
    | _ =>
      if endsList (← token) then return []
      else
        let c ← listItem lines fuel
        return c :: (← commands lines fuel)

end

end Bindery.Shell.Parse
