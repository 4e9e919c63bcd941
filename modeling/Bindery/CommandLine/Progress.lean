import Bindery.Action
import Bindery.CommandLine.Failure

/-!
# Progress

`showProgress` shows the events that a job announces.  Where nothing can be drawn over, that is
one line at the end of the request, which says whether the document was compiled and how many
sources were left out.  A line that cannot be printed breaks a run off (`Halt.panicked`).
`Style.apply` puts a text between the sequence of the terminal that turns a style on and the one
that turns all styles off.
-/

namespace Bindery

/-! ### Styles of a terminal -/

/-- How a text stands out on a terminal. -/
inductive Style where
  | bold
  | dim
  | red
  | green
  | yellow
  | cyan
deriving DecidableEq, Repr

namespace Style

/-- The number that the terminal gives a style. -/
def number : Style → Nat
  | bold => 1
  | dim => 2
  | red => 31
  | green => 32
  | yellow => 33
  | cyan => 36

/-- The sequence that sets the style of a number; number zero is no style. -/
def sequence (number : Nat) : String :=
  "\x1b[" ++ toString number ++ "m"

/-- A text in a style. -/
def apply (style : Style) (text : String) : String :=
  sequence style.number ++ text ++ sequence 0

end Style

/-! ### Lines -/

/-- What follows from whether a line could be printed. -/
def told : Bool → Except Halt Unit
  | true => .ok ()
  | false => .error .panicked

/-- Prints a line on the standard output. -/
def printLine (line : String) : Job (Except Halt Unit) := do
  return told (← act (.print (line ++ "\n")))

/-- Prints a line on the standard error output. -/
def complainLine (line : String) : Job (Except Halt Unit) := do
  return told (← act (.complain (line ++ "\n")))

/-- Prints lines on the standard error output. -/
def complainLines : List String → Job (Except Halt Unit)
  | [] => return .ok ()
  | line :: lines => (complainLine line).andThen fun () => complainLines lines

/-! ### Events as they are shown -/

namespace Progress

/-- The line that closes a request in which some sources failed. -/
def verdict (success : Bool) (failed : Nat) : String :=
  if !success then Style.red.apply "✘" ++ " Compilation failed"
  else if failed = 0 then Style.green.apply "✔" ++ " Compiled successfully"
  else Style.cyan.apply "⚠" ++ " Compiled (" ++ Style.red.apply (toString failed)
    ++ " sources skipped)"

/-- Shows an event, and counts the sources that failed. -/
def watch (failed : Nat) : (action : Action) → Job (Except Halt (action.Answer × Nat))
  | .announce (.sourceFailed ..) => return .ok ((), failed + 1)
  | .announce (.ended success) =>
    (complainLine (verdict success failed)).andThen fun () => return .ok ((), failed)
  | .announce _ => return .ok ((), failed)
  | action => do
    let answer ← act action
    return .ok (answer, failed)

end Progress

/-- The job, with its events shown if they are to be shown. -/
def showProgress {α : Type} (shown : Bool) (job : Job α) : Job (Except Halt α) :=
  if shown then (job.observe Progress.watch 0).andThen fun (value, _) => return .ok value
  else do return .ok (← job)

end Bindery
