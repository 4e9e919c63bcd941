import Bindery.Shell.Pattern
import Bindery.Shell.Script
import Bindery.Shell.Signal
import Bindery.Shell.Utility.Catalogue

/-!
# The state of a shell

A `State` holds what a running script can read and change: the file tree, the clock, variables,
functions, and where its input comes from and its output goes.  A `Flow` says how it goes on.
-/

namespace Bindery.Shell

/-- Where output goes. -/
inductive Sink where
  | nothing
  /-- The end of a file, given by its serial number. -/
  | file (serial : Nat)
  /-- A pipe, given by its number. -/
  | pipe (number : Nat)
deriving DecidableEq, Repr

/-- How a script goes on. -/
inductive Flow where
  /-- With the next command. -/
  | running
  /-- It ends with its status. -/
  | exiting
  /-- A function ends. -/
  | returning
  /-- So many loops end. -/
  | breaking (loops : Nat)
  /-- So many loops but one end, and that goes on with its next turn. -/
  | continuing (loops : Nat)
  /-- A signal ended a process, which is the shell or one that waits for it. -/
  | signalled (process signal : Nat)
  /-- The time is over. -/
  | overran
deriving DecidableEq, Repr

/-- What a running script can read and change. -/
structure State where
  tree : Tree
  /-- The time that has passed, in milliseconds. -/
  clock : Nat := 0
  /-- What was written to each pipe. -/
  pipes : List (List Char) := []
  /-- The current directory. -/
  cwd : Location
  bindings : List (List Char × List Char) := []
  /-- The variables that programs started by the script also have. -/
  exported : List (List Char) := []
  /-- The variables of the running function, with the values they had outside. -/
  locals : List (List Char × Option (List Char)) := []
  functions : List (List Char × Command) := []
  /-- The scripts that signals start; the end of the shell counts as signal zero. -/
  traps : List (Nat × List Char) := []
  /-- A script that a signal has started. -/
  pending : Option (List Char) := none
  /-- The number of the process. -/
  process : Nat := 4242
  /-- The name of the script. -/
  name : List Char
  arguments : List (List Char)
  /-- What can be read. -/
  input : List Char := []
  output : Sink := .nothing
  errors : Sink := .nothing
  /-- The status of the last command. -/
  status : Nat := 0
  /-- The status of the last script that was run for its output, since this was last cleared. -/
  outputStatus : Nat := 0
  flow : Flow := .running
  /-- The line of the last command. -/
  line : Nat := 1
  /-- A command that fails ends the script. -/
  exitsOnFailure : Bool := false
  /-- A parameter that is not set ends the script. -/
  exitsOnUnset : Bool := false
  /-- The status of a command is looked at, so that it may fail. -/
  isChecked : Bool := false
  /-- The time there is, in milliseconds. -/
  limit : Option Nat := none

namespace State

/-- The script goes on with its next command. -/
def isRunning (s : State) : Bool :=
  s.flow == .running

/-- The state with another status. -/
def withStatus (s : State) (status : Nat) : State :=
  { s with status }

/-- The state in which the script goes on in another way, if it goes on at all. -/
def turn (s : State) (flow : Flow) : State :=
  if s.isRunning then { s with flow } else s

/-! ### Output -/

/-- Writes a text to a place. -/
def writeTo (s : State) (sink : Sink) (text : List Char) : State :=
  match sink with
  | .nothing => s
  | .file serial => { s with tree := s.tree.append serial (toBytes text) }
  | .pipe number => { s with pipes := s.pipes.modify number (· ++ text) }

/-- Where a message of the shell itself arose. -/
def place (s : State) : List Char :=
  s.name ++ ofString (": " ++ toString s.line ++ ": ")

/-- Reports an error with the place where it arose. -/
def complain (s : State) (message : List Char) (status : Nat) : State :=
  (s.writeTo s.errors (s.place ++ message ++ ['\n'])).withStatus status

/-- Writes what a utility prints.  A part of the shell reports errors with their place. -/
def say (s : State) (isPart : Bool) (said : List (Bool × List Char)) : State :=
  said.foldl (fun s (isError, text) =>
    if isError then s.writeTo s.errors (if isPart then s.place ++ text else text)
    else s.writeTo s.output text) s

/-! ### Variables -/

/-- The value of a variable. -/
def valueOf? (s : State) (name : List Char) : Option (List Char) :=
  (s.bindings.find? fun entry => entry.1 = name).map Prod.snd

/-- The state with a variable removed. -/
def unset (s : State) (name : List Char) : State :=
  { s with bindings := s.bindings.filter fun entry => entry.1 ≠ name }

/-- The state with a variable set. -/
def assign (s : State) (name value : List Char) : State :=
  { s with bindings := (name, value) :: (s.unset name).bindings }

/-- The state with variables set. -/
def assignAll (s : State) (assignments : List (List Char × List Char)) : State :=
  assignments.foldl (fun s (name, value) => s.assign name value) s

/-- The state in which a variable has the given value or none. -/
def restore (s : State) (name : List Char) : Option (List Char) → State
  | none => s.unset name
  | some value => s.assign name value

/-- The state in which variables have the values that they have in another state. -/
def restoreFrom (s old : State) (names : List (List Char)) : State :=
  names.foldl (fun s name => s.restore name (old.valueOf? name)) s

/-- The value of a parameter, if it is set; of several arguments it is the text with blanks
between them. -/
def parameter? (s : State) (name : List Char) : Option (List Char) :=
  match name with
  | ['#'] => some (decimal s.arguments.length)
  | ['?'] => some (decimal s.status)
  | ['$'] => some (decimal s.process)
  | ['-'] => some (if s.exitsOnFailure then ['e'] else [])
  | ['@'] => if s.arguments.isEmpty then none else some (Text.joinWith [' '] s.arguments)
  | ['*'] => if s.arguments.isEmpty then none else some (Text.joinWith [' '] s.arguments)
  | ['0'] => some s.name
  | _ =>
    if name = "PPID".toList then some (decimal (s.process - 1))
    else if name.all Char.isDigit then s.arguments[(Arithmetic.valueOf name).toNat - 1]?
    else s.valueOf? name

/-- The characters at which the results of expansions and lines of input are cut. -/
def separators (s : State) : List Char :=
  (s.valueOf? "IFS".toList).getD [' ', '\t', '\n']

/-- The text of the current directory. -/
def cwdText (s : State) : List Char :=
  ofString ("/" ++ "/".intercalate s.cwd)

/-! ### Time -/

/-- Lets time pass. -/
def elapse (s : State) (milliseconds : Nat) : State :=
  let clock := s.clock + milliseconds
  if s.limit.any (· ≤ clock) then { s with clock, flow := .overran } else { s with clock }

/-- Runs a utility with arguments. -/
def useUtility (s : State) (isPart : Bool) (utility : Utility) (arguments : List (List Char)) :
    State :=
  let e := utility { tree := s.tree, cwd := s.cwd, arguments, input := s.input }
  let s := { s with tree := e.tree, input := e.input }
  ((s.say isPart e.said).withStatus e.status).elapse e.elapsed

/-! ### Signals -/

/-- Receives a signal. -/
def receive (s : State) (signal : Nat) : State :=
  match if Signal.isRelentless signal || signal = 0 then none else s.traps.lookup signal with
  | some script => { s with status := 0, pending := if script.isEmpty then none else some script }
  | none =>
    match Signal.effect signal with
    | .nothing => s.withStatus 0
    | .stops => s.turn .overran
    | .ends => s.turn (.signalled s.process signal)

/-- The state in which signals start no scripts. -/
def dropTraps (s : State) : State :=
  { s with traps := [] }

/-! ### Parts of a script that have a state of their own -/

/-- The state after a part of the script that has a state of its own: of that only the files,
the clock, the pipes and the status stay, and also that the shell is over. -/
def afterPart (s part : State) : State :=
  { s with
    tree := part.tree
    clock := part.clock
    pipes := part.pipes
    status := part.status
    flow := match part.flow with
      | .signalled process signal => .signalled process signal
      | .overran => .overran
      | _ => s.flow }

/-- The state after a shell that was started by a script.  That a signal ended it is reported,
unless the signal also ends this shell. -/
def afterShell (s part : State) : State :=
  let after := s.afterPart part
  match part.flow with
  | .signalled process signal =>
    if process = part.process then
      let after := { after with flow := s.flow, status := 128 + signal }
      after.writeTo after.errors (ofString (Signal.report signal))
    else after
  | _ => after

end State

end Bindery.Shell
