import Bindery.Shell.State

/-!
# Files of commands

A redirection opens a file for a command (`openFor`) or joins two of its outputs (`joinSinks`).
-/

namespace Bindery.Shell

/-- Why a file cannot be opened. -/
def openingReason (opening : Opening) (cause : OsError) : String :=
  if cause = .notFound || cause = .notADirectory then
    if opening = .reading then "No such file" else "Directory nonexistent"
  else reason cause

/-- The state with output of the given number going elsewhere. -/
def withSink (s : State) (number : Nat) (sink : Sink) : State :=
  if number = 1 then { s with output := sink }
  else if number = 2 then { s with errors := sink }
  else s

/-- Opens a file for a command.  If that fails, the state is the one in which the failure is
reported. -/
def openFor (s : State) (number : Nat) (opening : Opening) (path : List Char) : Bool × State :=
  let failed (cause : OsError) : Bool × State :=
    let verb := if opening = .reading then "cannot open " else "cannot create "
    (false, s.complain (ofString verb ++ path ++ ofString (": " ++ openingReason opening cause)) 2)
  if path = nullFile then
    (true, if number = 0 then { s with input := [] } else withSink s number .nothing)
  else match opening with
    | .reading =>
      match s.tree.read s.cwd (pathOf path) with
      | .ok bytes => (true, { s with input := ofBytes bytes })
      | .error .isADirectory => (true, { s with input := [] })
      | .error cause => failed cause
    | _ =>
      match s.tree.openFile s.cwd (pathOf path) (opening == .emptied) newFileMode with
      | .ok (serial, tree) => (true, withSink { s with tree } number (.file serial))
      | .error cause => failed cause

/-- Lets output of one number go where that of another goes. -/
def joinSinks (s : State) (number : Nat) (target : List Char) : State :=
  match target with
  | ['1'] => withSink s number s.output
  | ['2'] => withSink s number s.errors
  | ['-'] => if number = 0 then { s with input := [] } else withSink s number .nothing
  | _ => s

/-- The redirection changes what is read. -/
def changesInput : Redirection → Bool
  | .file number _ _ => number = 0
  | .same number _ => number = 0
  | .text number _ => number = 0

end Bindery.Shell
