import Bindery.Shell.Utility.Condition
import Bindery.Shell.Utility.Files
import Bindery.Shell.Utility.Filters
import Bindery.Shell.Utility.Values

/-!
# The catalogue of utilities

`program?` finds the utility that is a program of a name, and `command?` the one that a shell
runs under a name; some of these are parts of the shell (`isPartOfShell`).
-/

namespace Bindery.Shell.Utility

/-- The utilities that are programs of their own. -/
def programs : List (String × Utility) := [
  ("true", fun c => c.finish 0), ("false", fun c => c.finish 1), ("echo", echoProgram),
  ("printf", printf), ("pwd", pwd), ("test", test), ("[", bracket), ("cat", cat), ("tee", tee),
  ("touch", touch), ("mkdir", mkdir), ("rm", rm), ("rmdir", rmdir), ("cp", cp), ("mv", mv),
  ("ls", ls), ("chmod", chmod), ("wc", wc), ("tr", tr), ("head", head), ("tail", tail),
  ("sort", sort), ("uniq", uniq), ("grep", grep), ("cut", cut), ("basename", basename),
  ("dirname", dirname), ("seq", seq), ("sleep", sleep), ("expr", expr)]

/-- The program of a name. -/
def program? (name : String) : Option Utility :=
  (programs.find? fun entry => entry.1 = name).map Prod.snd

/-- The shell has a utility of the name as a part of its own. -/
def isPartOfShell (name : String) : Bool :=
  ["echo", ":", "true", "false", "printf", "pwd", "test", "["].contains name

/-- The utility that a shell runs under a name. -/
def command? (name : String) : Option Utility :=
  match name with
  | "echo" => some echo
  | ":" => some fun c => c.finish 0
  | _ => program? name

end Bindery.Shell.Utility
