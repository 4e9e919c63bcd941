import Bindery.Machine
import Bindery.Shell.Run

/-!
# Starting programs

`programs` says what the programs of the machine do: the utilities, the shell, and every file
that may be executed and names its interpreter in its first line.  A program is found by its
name, or by a path, which counts from the directory in which the program starts.
-/

namespace Bindery.Shell

/-- The number of nested steps and loop turns that a script has. -/
def maxSteps : Nat := 100000

/-- A program that can be started: what it does with its arguments to the state in which it
starts. -/
abbrev Program : Type := List (List Char) → State → State

/-- The shell as a program. -/
def shellProgram : Program := fun arguments s =>
  runShell maxSteps arguments { s with process := s.process - 1 }

/-- The program that the machine comes with under a name. -/
def systemProgram? (name : List Char) : Option Program :=
  if isShellName name then some shellProgram
  else (Utility.program? (stringOf name)).map fun utility arguments s =>
    s.useUtility false utility arguments

/-- The program of a path into a directory of the programs that the machine comes with. -/
def systemFile? (path : List Char) : Option Program :=
  systemDirs.findSome? fun dir =>
    if dir.toList.isPrefixOf path then systemProgram? (path.drop dir.length) else none

/-- A program with arguments in front of those it gets. -/
def Program.with (program : Program) (front : List (List Char)) : Program := fun arguments s =>
  program (front ++ arguments) s

/-- The program that an interpreter of the given command line is. -/
def interpreterProgram? (line : List Char) : Option Program :=
  let path := line.takeWhile fun c => !isBlank c
  let argument := trimBlanks (line.drop path.length)
  if systemDirs.any fun dir => dir.toList ++ "env".toList == path then systemProgram? argument
  else (systemFile? path).map fun program =>
    if argument.isEmpty then program else program.with [argument]

/-- The program of a path, for a program that starts in the given directory. -/
def fileProgram (tree : Tree) (directory : Location) (path : List Char) :
    Except OsError Program :=
  match tree.node directory (pathOf path) with
  | .error .notFound =>
    match systemFile? path with
    | some program => .ok program
    | none => .error .notFound
  | .error cause => .error cause
  | .ok (_, .dir _) => .error .permissionDenied
  | .ok (_, .file serial mode bytes) =>
    if !(Node.file serial mode bytes).isExecutable then .error .permissionDenied
    else match interpreter? (ofBytes bytes) with
      | none => .error .notExecutable
      | some line =>
        match interpreterProgram? line with
        | none => .error .notFound
        | some program => .ok (program.with [path])

/-- The program that an invocation starts in the given directory. -/
def programOf (tree : Tree) (directory : Location) (name : List Char) : Except OsError Program :=
  if name.contains '/' then fileProgram tree directory name
  else match systemProgram? name with
    | some program => .ok program
    | none => .error .notFound

/-- The directory in which an invocation starts. -/
def startDirectory (c : Invocation) (cwd : Location) (tree : Tree) : Except OsError Location :=
  match c.directory with
  | none => .ok cwd
  | some path =>
    match tree.node cwd path with
    | .error cause => .error cause
    | .ok (l, .dir _) => .ok l
    | .ok _ => .error .notADirectory

/-- Where programs are looked up, as scripts are told. -/
def searchPath : List Char :=
  "/usr/local/sbin:/usr/local/bin:/usr/sbin:/usr/bin:/sbin:/bin".toList

/-- The state in which an invocation starts. -/
def startState (c : Invocation) (directory : Location) (tree : Tree) : State :=
  let sink : Sink := match c.output with
    | some serial => .file serial
    | none => .nothing
  let s : State := { tree, cwd := directory, name := ofString c.program, arguments := [],
                     output := sink, errors := sink, limit := c.limit.map (1000 * ·)
                     exported := ["PWD".toList, "PATH".toList] }
  (s.assign "PWD".toList s.cwdText).assign "PATH".toList searchPath

/-- How a program ended that left the given state. -/
def endingOf (s : State) : Ending :=
  match s.flow with
  | .overran => .overran
  | .signalled .. => .signalled
  | _ => .exited s.status

/-- A program or an argument of an invocation holds a NUL. -/
def hasNul (c : Invocation) : Bool :=
  (c.program :: c.arguments).any fun text => text.toList.contains '\x00'

/-- What the programs of the machine do. -/
def programs : Programs := fun c cwd tree =>
  if hasNul c then (.error .nulInArgument, tree)
  else
    let found := do
      let directory ← startDirectory c cwd tree
      let program ← programOf tree directory (ofString c.program)
      return (directory, program)
    match found with
    | .error cause => (.error cause, tree)
    | .ok (directory, program) =>
      if c.limit = some 0 then (.ok .overran, tree)
      else
        let s := program (c.arguments.map ofString) (startState c directory tree)
        (.ok (endingOf s), s.tree)

end Bindery.Shell
