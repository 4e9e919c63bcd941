import Bindery.Dialogue
import Bindery.OsError
import Bindery.Path
import Bindery.Text.Utf8

/-!
# Actions

A `Job` is a computation that acts on its surroundings: a dialogue whose questions are
actions (`Action`), each with its own type of answer.  A job can read and change files, start
a program, ask whether a package is available, announce an event and print.  What the
surroundings answer is left open here.  An `Event` tells an observer how far a request has come;
positions and passes are counted from one.
-/

namespace Bindery

/-! ### Events -/

/-- A step of a request that is announced. -/
inductive Event where
  /-- The request begins. -/
  | begun (sources : Nat)
  /-- A source is about to be extracted. -/
  | sourceBegun (position total : Nat) (origin : String)
  /-- A source gave a fragment with so many body lines. -/
  | sourceExtracted (position total lines : Nat)
  /-- A source gave none. -/
  | sourceFailed (position total : Nat) (message : String)
  /-- The merged document is written. -/
  | merged (directives diagnostics : Nat)
  /-- The compiler is about to run. -/
  | passBegun (pass total : Nat)
  /-- The compiler ended; there is no exit code if a signal ended it. -/
  | passEnded (pass total : Nat) (exitCode : Option Int)
  /-- The request is over. -/
  | ended (success : Bool)
deriving DecidableEq, Repr

/-! ### Actions -/

/-- An open file. -/
abbrev Handle : Type := Nat

/-- A program to start. -/
structure Invocation where
  program : String
  arguments : List String
  /-- The directory in which it starts, if not the current one. -/
  directory : Option Path := none
  /-- The open file that takes everything it prints; without one, that is thrown away. -/
  output : Option Handle := none
  /-- The longest that it may run, in seconds. -/
  limit : Option Nat := none
deriving DecidableEq, Repr

/-- How a started program ended. -/
inductive Ending where
  | exited (code : Nat)
  /-- A signal ended it. -/
  | signalled
  /-- It was stopped because its time was over. -/
  | overran
  /-- Waiting for it failed. -/
  | lost (cause : OsError)
deriving DecidableEq, Repr

/-- The exit code, if the program ended by itself. -/
def Ending.code? : Ending → Option Int
  | exited code => some code
  | _ => none

/-- What the machine knows of a file without reading it. -/
structure Stat where
  isDir : Bool
  /-- Somebody may write to it. -/
  isWritable : Bool
  /-- The number of bytes. -/
  size : Nat
deriving DecidableEq, Repr

/-- Something that a job asks of its surroundings. -/
inductive Action where
  /-- Makes a directory and those it is in, as far as they are missing. -/
  | makeDirs (path : Path)
  | stat (path : Path)
  | read (path : Path)
  /-- Writes a whole file. -/
  | write (path : Path) (bytes : Bytes)
  /-- Removes a file. -/
  | remove (path : Path)
  /-- Opens a file for writing at its end, and creates it if it is missing. -/
  | openEnd (path : Path)
  /-- Writes at the end of an open file. -/
  | append (handle : Handle) (bytes : Bytes)
  | copy (source target : Path)
  | rename (source target : Path)
  /-- Starts a program and waits for its end. -/
  | launch (invocation : Invocation)
  /-- Asks the caller whether a package is available. -/
  | consult (package : String)
  | announce (event : Event)
  /-- Prints on the standard output; the answer is whether that succeeded. -/
  | print (text : String)
  /-- Prints on the standard error output; the answer is whether that succeeded. -/
  | complain (text : String)
  /-- Makes a new empty directory with a name of its own. -/
  | makeTemporary
  /-- Removes a directory with everything in it. -/
  | removeAll (path : Path)
deriving DecidableEq, Repr

/-- The type of the answer to an action. -/
abbrev Action.Answer : Action → Type
  | makeDirs _ => Except OsError Unit
  | stat _ => Except OsError Stat
  | read _ => Except OsError Bytes
  | write _ _ => Except OsError Unit
  | remove _ => Except OsError Unit
  | openEnd _ => Except OsError Handle
  | append _ _ => Except OsError Unit
  | copy _ _ => Except OsError Unit
  | rename _ _ => Except OsError Unit
  | launch _ => Except OsError Ending
  | consult _ => Bool
  | announce _ => Unit
  | print _ => Bool
  | complain _ => Bool
  | makeTemporary => Except OsError Path
  | removeAll _ => Except OsError Unit

/-- A computation that acts on its surroundings. -/
abbrev Job (α : Type) : Type :=
  Dialogue Action Action.Answer α

/-- The job of a single action. -/
def act (action : Action) : Job action.Answer :=
  Dialogue.question action

end Bindery
