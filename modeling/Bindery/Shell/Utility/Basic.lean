import Bindery.Shell.Text
import Bindery.Text.Lines
import Bindery.Tree

/-!
# Utilities

A `Utility` is a small program that reads its arguments, its input and the file tree, and whose
`Effect` is all that it does.  `Call.options` separates options from other arguments, and
`Call.forEach` handles one argument after another.
-/

namespace Bindery.Shell

/-- How a utility is called. -/
structure Call where
  tree : Tree
  /-- The current directory. -/
  cwd : Location
  arguments : List (List Char)
  /-- What can be read. -/
  input : List Char

/-- What a utility does. -/
structure Effect where
  tree : Tree
  /-- What is left to be read. -/
  input : List Char
  /-- What is printed, each with whether it is an error message. -/
  said : List (Bool × List Char) := []
  status : Nat := 0
  /-- The time that passes, in milliseconds. -/
  elapsed : Nat := 0

/-- A utility. -/
abbrev Utility : Type := Call → Effect

namespace Call

/-- Ends with a status. -/
def finish (c : Call) (status : Nat) : Effect :=
  { tree := c.tree, input := c.input, status }

/-- Prints a text. -/
def print (c : Call) (text : List Char) (status : Nat) : Effect :=
  { tree := c.tree, input := c.input, said := [(false, text)], status }

/-- Prints an error message. -/
def complain (c : Call) (message : String) (status : Nat) : Effect :=
  { tree := c.tree, input := c.input, said := [(true, ofString (message ++ "\n"))], status }

/-- The letters of the options, and the other arguments.  Two hyphens end the options. -/
def options : List (List Char) → List Char × List (List Char)
  | [] => ([], [])
  | argument :: rest =>
    match argument with
    | ['-', '-'] => ([], rest)
    | '-' :: c :: cs =>
      let (letters, others) := options rest
      (c :: cs ++ letters, others)
    | _ => ([], argument :: rest)

/-- The text of a file that an argument names, where a hyphen names the input. -/
def content (c : Call) (argument : List Char) : Except OsError (List Char) :=
  if argument = ['-'] then .ok c.input
  else if argument = nullFile then .ok []
  else (c.tree.read c.cwd (pathOf argument)).map ofBytes

end Call

namespace Effect

/-- The effect, and a text that is printed. -/
def say (e : Effect) (text : List Char) : Effect :=
  { e with said := e.said ++ [(false, text)] }

/-- The effect, and an error message. -/
def complain (e : Effect) (message : String) (status : Nat) : Effect :=
  { e with said := e.said ++ [(true, ofString (message ++ "\n"))], status }

end Effect

/-- Does something for one argument after another; what fails is reported under the name of the
utility and makes the status one. -/
def Call.forEach (c : Call) (name : String) (arguments : List (List Char))
    (act : Tree → List Char → Except String Tree) : Effect :=
  arguments.foldl (fun e argument =>
    match act e.tree argument with
    | .ok tree => { e with tree }
    | .error message => e.complain (name ++ ": " ++ message) 1) (c.finish 0)

end Bindery.Shell
