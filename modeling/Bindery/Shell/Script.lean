/-!
# Shell scripts

The abstract form of the scripts that a shell runs.  Text is a list of characters of which each
stands for one byte.  A `Word` consists of parts, some of which are only known when the script
runs, and a `Script` is a list of commands.
-/

namespace Bindery.Shell

/-- What is done to the value of a parameter; the word that this needs is kept beside it. -/
inductive Change where
  | asIs
  | length
  /-- The word, if the parameter is not set; with `orEmpty` also if it is empty. -/
  | default (orEmpty : Bool)
  /-- The same, and the parameter gets the word as its value. -/
  | assign (orEmpty : Bool)
  /-- The script fails with the word as its message, if the parameter is not set. -/
  | demand (orEmpty : Bool)
  /-- The word, if the parameter is set. -/
  | alternative (orEmpty : Bool)
  /-- Without the end that matches the word as a pattern. -/
  | withoutEnd (longest : Bool)
  /-- Without the start that matches the word as a pattern. -/
  | withoutStart (longest : Bool)
deriving DecidableEq, Repr

/-- How a file is opened. -/
inductive Opening where
  | reading
  | emptied
  | atEnd
deriving DecidableEq, Repr

mutual

/-- A part of a word. -/
inductive Part where
  | text (chars : List Char) (isQuoted : Bool)
  | parameter (name : List Char) (change : Change) (word : List Part) (isQuoted : Bool)
  /-- What a script prints. -/
  | output (script : List Command) (isQuoted : Bool)
  /-- The value of an expression. -/
  | arithmetic (expression : List Part) (isQuoted : Bool)

/-- A change of the files that a command uses. -/
inductive Redirection where
  | file (number : Nat) (opening : Opening) (target : List Part)
  /-- The same file as another number. -/
  | same (number : Nat) (target : List Part)
  /-- A text to be read. -/
  | text (number : Nat) (content : List Part)

/-- A command. -/
inductive Command where
  | simple (line : Nat) (assignments : List (List Char × List Part)) (words : List (List Part))
  | redirected (command : Command) (redirections : List Redirection)
  | pipeline (commands : List Command)
  | negated (command : Command)
  /-- The second command runs if the first succeeds. -/
  | andThen (first second : Command)
  /-- The second command runs if the first fails. -/
  | orElse (first second : Command)
  | background (command : Command)
  | group (script : List Command)
  | subshell (script : List Command)
  /-- The script of the first condition that succeeds. -/
  | choice (branches : List (List Command × List Command)) (otherwise : List Command)
  /-- A loop that goes on while its condition succeeds, or until it does. -/
  | loop (isUntil : Bool) (condition body : List Command)
  /-- A loop over words, or over the arguments. -/
  | each (name : List Char) (words : Option (List (List Part))) (body : List Command)
  /-- The script of the first pattern that matches a word. -/
  | select (word : List Part) (arms : List (List (List Part) × List Command))
  | define (name : List Char) (body : Command)

end

/-- A word. -/
abbrev Word : Type := List Part

/-- A script. -/
abbrev Script : Type := List Command

end Bindery.Shell
