import Bindery.CommandLine.Setting

/-!
# Reading the command line

`Given.ofArguments` reads the arguments of the program one after another, and `Given.complete`
asks the environment for the settings that the command line does not give.  Reading stops at the
first fault (`UsageFault`), and also where help or the version is asked for (`Stop`).
-/

namespace Bindery

/-- What is wrong with a command line. -/
inductive UsageFault where
  /-- No setting has this name, and other arguments are not taken. -/
  | unexpected (argument : String)
  | valueMissing (setting : Setting)
  /-- A flag is given a value. -/
  | valueRefused (setting : Setting)
  | invalidValue (setting : Setting) (value : String)
  | givenTwice (setting : Setting)
  | nothingGiven
deriving DecidableEq, Repr

/-- The wording of a fault. -/
def UsageFault.message : UsageFault → String
  | unexpected argument => "unexpected argument '" ++ argument ++ "' found"
  | valueMissing setting =>
    "a value is required for '--" ++ setting.name ++ "' but none was supplied"
  | valueRefused setting =>
    "unexpected value for '--" ++ setting.name ++ "' found; no more were expected"
  | invalidValue setting value => "invalid value '" ++ value ++ "' for '--" ++ setting.name ++ "'"
  | givenTwice setting => "the argument '--" ++ setting.name ++ "' cannot be used multiple times"
  | nothingGiven => "no arguments given"

/-- Why a command line is not read to its end. -/
inductive Stop where
  | fault (fault : UsageFault)
  | help
  | version
deriving DecidableEq, Repr

/-- The settings that are given, in order, each with its value. -/
abbrev Given : Type := List (Setting × String)

namespace Given

/-- The setting is given. -/
def has (g : Given) (s : Setting) : Bool :=
  g.any fun entry => entry.1 = s

/-- The values of a setting. -/
def values (g : Given) (s : Setting) : List String :=
  (g.filter fun entry => entry.1 = s).map Prod.snd

/-- The value of a setting that is given. -/
def value? (g : Given) (s : Setting) : Option String :=
  (g.values s).head?

/-- Gives a setting a value. -/
def give (g : Given) (s : Setting) (value : String) : Except Stop Given :=
  if s = .help then .error .help
  else if s = .version then .error .version
  else if g.has s && !s.isRepeatable then .error (.fault (.givenTwice s))
  else if s.accepts value then .ok (g ++ [(s, value)])
  else .error (.fault (.invalidValue s value))

/-- Reads letters that follow a single dash.  The answer is also the setting whose value the
next argument is. -/
def giveLetters (g : Given) : List Char → Except Stop (Given × Option Setting)
  | [] => .ok (g, none)
  | letter :: rest =>
    match Setting.ofLetter? letter with
    | none => .error (.fault (.unexpected (String.ofList ['-', letter])))
    | some s =>
      if s.isFlag then
        match g.give s "true" with
        | .error stop => .error stop
        | .ok g => g.giveLetters rest
      else match rest with
        | [] => .ok (g, some s)
        | '=' :: value => (g.give s (String.ofList value)).map (·, none)
        | value => (g.give s (String.ofList value)).map (·, none)

/-- Reads what follows two dashes.  The answer is also the setting whose value the next argument
is. -/
def giveLong (g : Given) (text : List Char) : Except Stop (Given × Option Setting) :=
  let name := text.takeWhile (· != '=')
  let isClosed := name.length < text.length
  match Setting.ofName? name with
  | none => .error (.fault (.unexpected (String.ofList ('-' :: '-' :: name))))
  | some s =>
    if s.isFlag then
      if isClosed then .error (.fault (.valueRefused s)) else (g.give s "true").map (·, none)
    else if isClosed then
      (g.give s (String.ofList (text.drop (name.length + 1)))).map (·, none)
    else .ok (g, some s)

/-- An argument that can be the value of the setting before it. -/
def isValue (argument : List Char) : Bool :=
  match argument with
  | ['-'] => true
  | '-' :: _ => false
  | _ => true

/-- Reads arguments, of which the first may be the value of a setting. -/
def readArguments (g : Given) : Option Setting → List String → Except Stop Given
  | none, [] => .ok g
  | some s, [] => .error (.fault (.valueMissing s))
  | some s, argument :: rest =>
    if isValue argument.toList then
      match g.give s argument with
      | .error stop => .error stop
      | .ok g => g.readArguments none rest
    else .error (.fault (.valueMissing s))
  | none, argument :: rest =>
    match argument.toList with
    | ['-', '-'] =>
      match rest with
      | [] => .ok g
      | next :: _ => .error (.fault (.unexpected next))
    | '-' :: '-' :: text =>
      match g.giveLong text with
      | .error stop => .error stop
      | .ok (g, pending) => g.readArguments pending rest
    | '-' :: letter :: letters =>
      match g.giveLetters (letter :: letters) with
      | .error stop => .error stop
      | .ok (g, pending) => g.readArguments pending rest
    | _ => .error (.fault (.unexpected argument))

/-- Adds the value of the environment for a setting that is not given. -/
def giveFrom (environment : String → Option String) (g : Given) (s : Setting) :
    Except Stop Given :=
  match (if g.has s then none else s.environmentName?.bind environment) with
  | none => .ok g
  | some value => g.give s value

/-- Adds the values of the environment. -/
def complete (environment : String → Option String) (g : Given) : Except Stop Given :=
  Setting.all.foldlM (giveFrom environment) g

/-- Reads the arguments and the environment, which together have to give something. -/
def ofArguments (arguments : List String) (environment : String → Option String) :
    Except Stop Given := do
  let g ← complete environment (← readArguments [] none arguments)
  if g.isEmpty then throw (.fault .nothingGiven) else return g

end Given

end Bindery
