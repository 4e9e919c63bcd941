import Bindery.Shell.Parse.Command

/-!
# Lines of a script

`nextLine` reads the commands on the next line of a script, with the lines that they go on to,
so that a script can run line by line.
-/

namespace Bindery.Shell

/-- What comes next in a script. -/
inductive Next where
  /-- The script is over. -/
  | nothing
  | line (commands : Script) (rest : List Char)
  /-- The script goes on in a way that is no command. -/
  | malformed

/-- Reads commands up to the end of the line. -/
def Parse.lineCommands (lines : Nat) : Nat → Parse Script
  | 0 => failure
  | fuel + 1 => do
    let cs ← get
    let c ← Parse.listItem lines (8 * cs.length + 64)
    Parse.blanks
    let isBackground := match c with
      | .background _ => true
      | _ => false
    let isSeparated ← Parse.skip? ";"
    Parse.blanks
    match ← get with
    | [] => return [c]
    | '\n' :: _ => return [c]
    | _ =>
      if isBackground || isSeparated then
        let rest ← Parse.lineCommands lines fuel
        return c :: rest
      else failure

/-- The next line of a script that has so many lines in all. -/
def nextLine (lines : Nat) (text : List Char) : Next :=
  match Parse.dropLineBreaks (text.length + 1) text with
  | [] => .nothing
  | rest =>
    match (Parse.lineCommands lines (rest.length + 1)).run rest with
    | some (commands, rest) => .line commands rest
    | none => .malformed

end Bindery.Shell
