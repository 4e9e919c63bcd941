import Bindery.Shell.Expansion

/-!
# Commands that change the shell

`builtin?` finds the commands that change the state of the shell and run nothing themselves.
-/

namespace Bindery.Shell.Builtin

/-- A command that changes the shell. -/
abbrev Change : Type := State → List (List Char) → State

/-! ### Ends -/

/-- The shell goes on in another way, with the status of an argument or of the last command. -/
def leave (name : String) (flow : Flow) : Change := fun s arguments =>
  match arguments with
  | [] => s.turn flow
  | argument :: _ =>
    if argument.all Char.isDigit && !argument.isEmpty then
      let status := argument.foldl (fun n d => 10 * n + (d.toNat - 48)) 0
      (s.withStatus (status % 256)).turn flow
    else
      (s.complain (ofString (name ++ ": Illegal number: ") ++ argument) 2).turn .exiting

/-- The number that an argument gives, which is one if there is none. -/
def countOf (arguments : List (List Char)) : Nat :=
  match arguments with
  | [] => 1
  | argument :: _ => (Arithmetic.valueOf argument).toNat

/-! ### Directories -/

/-- Goes to the directory of a path. -/
def enter (s : State) (path : List Char) : State :=
  match s.tree.node s.cwd (pathOf path) with
  | .ok (cwd, .dir _) =>
    let t := { s with cwd }
    ((t.assign "OLDPWD".toList s.cwdText).assign "PWD".toList t.cwdText).withStatus 0
  | _ => s.complain (ofString "cd: can't cd to " ++ path) 2

/-- Goes to another directory, or back to the one before. -/
def changeDirectory : Change := fun s arguments =>
  match arguments with
  | [] => s.withStatus 0
  | ['-'] :: _ =>
    let t := enter s ((s.valueOf? "OLDPWD".toList).getD ['.'])
    t.writeTo t.output (t.cwdText ++ ['\n'])
  | path :: _ => enter s path

/-! ### Variables -/

/-- The first line of the input, in which a backslash quotes the character after it if `escapes`
holds, whether it is closed, and what follows it. -/
def takeLine (escapes : Bool) : List Char → Pattern × Bool × List Char
  | [] => ([], false, [])
  | '\n' :: rest => ([], true, rest)
  | '\\' :: c :: rest =>
    if escapes then
      let (line, isClosed, rest) := takeLine escapes rest
      (if c = '\n' then line else (c, true) :: line, isClosed, rest)
    else
      let (line, isClosed, rest) := takeLine escapes (c :: rest)
      (('\\', false) :: line, isClosed, rest)
  | c :: rest =>
    let (line, isClosed, rest) := takeLine escapes rest
    ((c, false) :: line, isClosed, rest)

/-- Cuts a line into a value for each name; the last gets all that is left. -/
def assignFields (separators : List Char) (s : State) : List (List Char) → Pattern → State
  | [], _ => s
  | [name], rest =>
    s.assign name (Pattern.text (rest.reverse.dropWhile isGap).reverse)
  | name :: names, rest =>
    let value := rest.takeWhile fun c => !isCut c
    let rest := (rest.drop value.length).dropWhile isGap
    let rest := if rest.head?.any isCut then (rest.drop 1).dropWhile isGap else rest
    assignFields separators (s.assign name (Pattern.text value)) names rest
where
  /-- The character is a separator. -/
  isCut (c : Char × Bool) : Bool := !c.2 && separators.contains c.1
  /-- The character is a separator of which several count as one. -/
  isGap (c : Char × Bool) : Bool := isCut c && isBlank c.1

/-- Reads a line of the input into variables. -/
def readLine : Change := fun s arguments =>
  let (letters, names) := Call.options arguments
  let (line, isClosed, input) := takeLine (!letters.contains 'r') s.input
  let line := line.dropWhile fun (c, isQuoted) =>
    !isQuoted && s.separators.contains c && isBlank c
  (assignFields s.separators { s with input } names line).withStatus (if isClosed then 0 else 1)

/-- Sets the variables that arguments assign to, and lets programs have them. -/
def exportAll : Change := fun s arguments =>
  let s := arguments.foldl (fun s argument =>
    let name := argument.takeWhile (· != '=')
    let s := { s with exported := name :: s.exported }
    if name.length < argument.length then s.assign name (argument.drop (name.length + 1))
    else s) s
  s.withStatus 0

/-- Makes variables of the running function, and sets those that arguments assign to. -/
def declareLocal : Change := fun s arguments =>
  let s := arguments.foldl (fun s argument =>
    let name := argument.takeWhile (· != '=')
    let s := { s with locals := s.locals ++ [(name, s.valueOf? name)] }
    if name.length < argument.length then s.assign name (argument.drop (name.length + 1))
    else s) s
  s.withStatus 0

/-! ### Options and arguments -/

/-- Turns options of the shell on or off. -/
def setLetters (s : State) (isOn : Bool) (letters : List Char) : State :=
  { s with
    exitsOnFailure := if letters.contains 'e' then isOn else s.exitsOnFailure
    exitsOnUnset := if letters.contains 'u' then isOn else s.exitsOnUnset }

/-- Changes options of the shell, or its arguments. -/
def setOptions (s : State) : List (List Char) → State
  | [] => s.withStatus 0
  | ['-', '-'] :: rest => { s with arguments := rest, status := 0 }
  | ('-' :: letters) :: rest => setOptions (setLetters s true letters) rest
  | ('+' :: letters) :: rest => setOptions (setLetters s false letters) rest
  | rest => { s with arguments := rest, status := 0 }

/-- Drops the first arguments. -/
def shift : Change := fun s arguments =>
  let count := countOf arguments
  if s.arguments.length < count then
    (s.complain (ofString "shift: can't shift that many") 2).turn .exiting
  else { s with arguments := s.arguments.drop count, status := 0 }

/-! ### Signals -/

/-- Sends a signal to a process, of which there are only the shell and those that wait for it. -/
def kill : Change := fun s arguments =>
  let (signal, processes) := match arguments with
    | ['-', 's'] :: signal :: rest => (Signal.of signal, rest)
    | ['-', 'n'] :: signal :: rest => (Signal.of signal, rest)
    | ('-' :: signal) :: rest => (Signal.of signal, rest)
    | rest => (15, rest)
  processes.foldl (fun s process =>
    let number := (Arithmetic.valueOf process).toNat
    if number = s.process || number = 0 then s.receive signal
    else if 4242 ≤ number && number < s.process then
      match Signal.effect signal with
      | .nothing => s.withStatus 0
      | _ => s.turn (.signalled number signal)
    else s.complain (ofString "kill: No such process") 1) (s.withStatus 0)

/-- Says which scripts signals start. -/
def setTraps : Change := fun s arguments =>
  let set (action : Option (List Char)) (signals : List (List Char)) : State :=
    let numbers := signals.map Signal.of
    let others := s.traps.filter fun entry => !numbers.contains entry.1
    let traps := match action with
      | none => others
      | some script => numbers.map (·, script) ++ others
    { s with traps, status := 0 }
  match arguments with
  | [] => s.withStatus 0
  | ['-'] :: signals => set none signals
  | [signal] => set none [signal]
  | script :: signals => set (some script) signals

/-! ### Descriptions -/

/-- The names of the commands that the shell has itself, besides the utilities. -/
def names : List String :=
  ["exit", "return", "break", "continue", "cd", "read", "kill", "set", "shift", "export",
    "readonly", "local", "unset", "trap", "umask", "wait", "type", "eval", "exec", "command", "."]

/-- The names of commands whose failure to open a file ends the script. -/
def isSpecial (name : List Char) : Bool :=
  [":", "exec", "exit", "export", "readonly", "set", "shift", "unset", ".", "eval", "break",
    "continue", "return", "trap"].any fun n => n.toList == name

/-- What a command is: how it is called, in short, and in a sentence. -/
def description? (s : State) (name : List Char) : Option (List Char × String) :=
  let text := String.ofList name
  if s.functions.any fun entry => entry.1 = name then some (name, " is a shell function")
  else if isSpecial name then some (name, " is a special shell builtin")
  else if names.contains text || Utility.isPartOfShell text then
    some (name, " is a shell builtin")
  else if (Utility.program? text).isSome then
    let path := "/usr/bin/" ++ text
    some (path.toList, " is " ++ path)
  else none

/-- Says what commands are. -/
def describe : Change := fun s arguments =>
  arguments.foldl (fun s name =>
    match description? s name with
    | some (_, sentence) => s.writeTo s.output (name ++ ofString (sentence ++ "\n"))
    | none => (s.writeTo s.output (name ++ ofString ": not found\n")).withStatus 127)
    (s.withStatus 0)

/-- Says how a command is called. -/
def locate : Change := fun s arguments =>
  match arguments.head?.bind (description? s) with
  | some (short, _) => (s.writeTo s.output (short ++ ['\n'])).withStatus 0
  | none => s.withStatus 127

/-! ### All -/

/-- The command of a name. -/
def find? (name : List Char) : Option Change :=
  match String.ofList name with
  | "exit" => some (leave "exit" .exiting)
  | "return" => some (leave "return" .returning)
  | "break" => some fun s arguments => s.turn (.breaking (countOf arguments))
  | "continue" => some fun s arguments => s.turn (.continuing (countOf arguments))
  | "cd" => some changeDirectory
  | "read" => some readLine
  | "kill" => some kill
  | "set" => some setOptions
  | "shift" => some shift
  | "export" => some exportAll
  | "readonly" => some exportAll
  | "local" => some declareLocal
  | "unset" => some fun s arguments => (arguments.foldl State.unset s).withStatus 0
  | "trap" => some setTraps
  | "umask" => some fun s _ => s.withStatus 0
  | "wait" => some fun s _ => s.withStatus 0
  | "type" => some describe
  | _ => none

end Bindery.Shell.Builtin
