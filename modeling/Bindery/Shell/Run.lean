import Bindery.Shell.Builtin
import Bindery.Shell.Opening
import Bindery.Shell.Parse.Line

/-!
# Running scripts

`runText` runs the text of a script in a state, line by line, and `run` a single command.
Commands that change the shell are in `Builtin`; others are utilities, functions of the script,
or files that are scripts.  Scripts need not end, so running is bounded by a number of nested
steps and loop turns; when that is used up, the time counts as over.
-/

namespace Bindery.Shell

/-! ### Names of commands -/

/-- The first word of a simple command, if it is a plain text. -/
def firstWord : Command → List Char
  | .simple _ _ (word :: _) => Parse.plainText word
  | _ => []

/-- The line of a simple command, or else the given one. -/
def lineOfCommand (line : Nat) : Command → Nat
  | .simple line _ _ => line
  | _ => line

/-- What follows the first line of a script that names a shell. -/
def interpreter? (text : List Char) : Option (List Char) :=
  match text with
  | '#' :: '!' :: rest => some (trimBlanks (rest.takeWhile (· != '\n')))
  | _ => none

/-- The names under which the shell can be started. -/
def isShellName (name : List Char) : Bool :=
  ["sh", "dash", "bash"].any fun n => n.toList == name

/-- The directories of the programs that the machine comes with. -/
def systemDirs : List String := ["/bin/", "/usr/bin/"]

/-! ### Ends of commands -/

/-- A failure ends the script, if failures do and nothing looks at the status. -/
def afterCommand (s : State) : State :=
  if s.exitsOnFailure && !s.isChecked && s.status != 0 then s.turn .exiting else s

/-- The state after a turn of a loop, and whether there may be another. -/
def afterTurn (s : State) : Bool × State :=
  match s.flow with
  | .running => (true, s)
  | .breaking n => (false, { s with flow := if n ≤ 1 then .running else .breaking (n - 1) })
  | .continuing n =>
    if n ≤ 1 then (true, { s with flow := .running })
    else (false, { s with flow := .continuing (n - 1) })
  | _ => (false, s)

/-- The state after a function that was called in the given state. -/
def afterFunction (s t : State) : State :=
  let restored := t.locals.foldr (fun (name, value) t => t.restore name value) t
  { restored with
    arguments := s.arguments
    locals := s.locals
    flow := if t.flow == .returning then .running else t.flow }

/-- The state of a shell that a script starts. -/
def childShell (s : State) : State :=
  { s with
    bindings := s.bindings.filter fun entry => s.exported.contains entry.1
    locals := [], functions := [], traps := [], exitsOnFailure := false, exitsOnUnset := false
    isChecked := false, process := s.process + 1, line := 1 }

/-- A text without the line breaks at its end. -/
def dropBreaks (text : List Char) : List Char :=
  (text.reverse.dropWhile (· == '\n')).reverse

/-- A parameter counts as set. -/
def isSet (value : Option (List Char)) (orEmpty : Bool) : Bool :=
  match value with
  | none => false
  | some text => !(orEmpty && text.isEmpty)

/-- A parameter has to be set, because the script ends otherwise. -/
def isDemanded (s : State) (name : List Char) : Bool :=
  s.exitsOnUnset && name != ['@'] && name != ['*']

/-- The script ends because a parameter is not set. -/
def endUnset (s : State) (name text : List Char) : State :=
  let text := if text.isEmpty then ofString "parameter not set" else text
  (s.complain (name ++ ofString ": " ++ text) 2).turn .exiting

mutual

/-- Expands a word, and adds it to fields.  With `cuts` the results of expansions are cut. -/
def expandWord (cuts : Bool) : Nat → Word → Fields → State → Fields × State
  | 0, _, f, s => (f, s.turn .overran)
  | _ + 1, [], f, s => (f, s)
  | fuel + 1, part :: parts, f, s =>
    let (f, s) := expandPart cuts fuel part f s
    expandWord cuts fuel parts f s

/-- Expands a part of a word. -/
def expandPart (cuts : Bool) : Nat → Part → Fields → State → Fields × State
  | 0, _, f, s => (f, s.turn .overran)
  | fuel + 1, part, f, s =>
    let separators (s : State) : Option (List Char) := if cuts then some s.separators else none
    match part with
    | .text chars isQuoted => (f.add chars isQuoted, s)
    | .arithmetic expression isQuoted =>
      let (text, s) := textOf fuel expression s
      match Arithmetic.evaluate (fun name => (s.valueOf? name).getD []) text with
      | .ok (value, changes) =>
        let s := s.assignAll (changes.reverse.map fun (name, n) => (name, decimal n))
        (f.addResult (decimal value) isQuoted (separators s), s)
      | .error fault => (f, (s.complain (fault.message text) 2).turn .exiting)
    | .output script isQuoted =>
      let number := s.pipes.length
      let start := { s with pipes := s.pipes ++ [[]], output := .pipe number, traps := [] }
      let part := endShell fuel (runScript fuel script start)
      let text := (part.pipes[number]?).getD []
      let s := s.afterPart { part with pipes := part.pipes.take number }
      (f.addResult (dropBreaks text) isQuoted (separators s),
        { s with outputStatus := part.status })
    | .parameter name change word isQuoted =>
      let value := s.parameter? name
      let result (text : List Char) (s : State) : Fields × State :=
        (f.addResult text isQuoted (separators s), s)
      match change with
      | .asIs =>
        if (name == ['@'] || (name == ['*'] && !isQuoted)) && cuts then
          (f.addAll isQuoted (separators s) s.arguments, s)
        else if value.isNone && isDemanded s name then (f, endUnset s name [])
        else result (value.getD []) s
      | .length =>
        if value.isNone && isDemanded s name then (f, endUnset s name [])
        else result (decimal (value.getD []).length) s
      | .default orEmpty =>
        if isSet value orEmpty then result (value.getD []) s else expandWord cuts fuel word f s
      | .assign orEmpty =>
        if isSet value orEmpty then result (value.getD []) s
        else
          let (text, s) := textOf fuel word s
          result text (s.assign name text)
      | .demand orEmpty =>
        if isSet value orEmpty then result (value.getD []) s
        else
          let (text, s) := textOf fuel word s
          (f, endUnset s name text)
      | .alternative orEmpty =>
        if isSet value orEmpty then expandWord cuts fuel word f s else (f, s)
      | .withoutEnd longest =>
        let (p, s) := patternOf fuel word s
        result (p.dropEnd longest (value.getD [])) s
      | .withoutStart longest =>
        let (p, s) := patternOf fuel word s
        result (p.dropStart longest (value.getD [])) s

/-- The pattern that a word yields. -/
def patternOf : Nat → Word → State → Pattern × State
  | 0, _, s => ([], s.turn .overran)
  | fuel + 1, word, s =>
    let (f, s) := expandWord false fuel word {} s
    (f.current.getD [], s)

/-- The text that a word yields. -/
def textOf : Nat → Word → State → List Char × State
  | 0, _, s => ([], s.turn .overran)
  | fuel + 1, word, s =>
    let (p, s) := patternOf fuel word s
    (p.text, s)

/-- The fields that words yield. -/
def fieldsOf : Nat → List Word → State → List (List Char) × State
  | 0, _, s => ([], s.turn .overran)
  | _ + 1, [], s => ([], s)
  | fuel + 1, word :: words, s =>
    let (f, s) := expandWord true fuel word {} s
    let (rest, s) := fieldsOf fuel words s
    (f.toList.flatMap (fieldPaths s.tree s.cwd) ++ rest, s)

/-- The values of assignments. -/
def valuesOf : Nat → List (List Char × Word) → State → List (List Char × List Char) × State
  | 0, _, s => ([], s.turn .overran)
  | _ + 1, [], s => ([], s)
  | fuel + 1, (name, word) :: rest, s =>
    let (text, s) := textOf fuel word s
    let (values, s) := valuesOf fuel rest s
    ((name, text) :: values, s)

/-- Opens the files of redirections, up to the first that cannot be opened. -/
def redirect : Nat → List Redirection → State → Bool × State
  | 0, _, s => (false, s.turn .overran)
  | _ + 1, [], s => (true, s)
  | fuel + 1, r :: rs, s =>
    match r with
    | .file number opening target =>
      let (path, s) := textOf fuel target s
      match openFor s number opening path with
      | (true, s) => redirect fuel rs s
      | (false, s) => (false, s)
    | .same number target =>
      let (text, s) := textOf fuel target s
      redirect fuel rs (joinSinks s number text)
    | .text number content =>
      let (text, s) := textOf fuel content s
      redirect fuel rs (if number = 0 then { s with input := text } else s)

/-- Runs a command. -/
def run : Nat → Command → State → State
  | 0, _, s => s.turn .overran
  | fuel + 1, c, s =>
    match c with
    | .simple line assignments words =>
      let (fields, s) := fieldsOf fuel words { s with line, outputStatus := 0 }
      let (values, s) := valuesOf fuel assignments s
      if !s.isRunning then s
      else if fields.isEmpty then
        afterCommand ((s.assignAll values).withStatus s.outputStatus)
      else if fields.head?.any Builtin.isSpecial then
        afterCommand (runFields fuel fields (s.assignAll values))
      else
        let names := values.map Prod.fst
        let t := { s.assignAll values with exported := names ++ s.exported }
        let t := (runFields fuel fields t).restoreFrom s names
        afterCommand (if names.isEmpty then t else { t with exported := s.exported })
    | .redirected c rs =>
      let s := { s with line := lineOfCommand s.line c }
      match redirect fuel rs s with
      | (false, t) =>
        let t := { t with output := s.output, errors := s.errors, input := s.input }
        if Builtin.isSpecial (firstWord c) then t.turn .exiting else afterCommand t
      | (true, t) =>
        let t := run fuel c t
        if firstWord c = "exec".toList then t
        else
          { t with
            output := s.output
            errors := s.errors
            input := if rs.any changesInput then s.input else t.input }
    | .pipeline cs => afterCommand (runPipeline fuel cs s)
    | .negated c =>
      let t := run fuel c { s with isChecked := true }
      { t with isChecked := s.isChecked, status := if t.status = 0 then 1 else 0 }
    | .andThen first second =>
      let t := { run fuel first { s with isChecked := true } with isChecked := s.isChecked }
      if t.isRunning && t.status = 0 then run fuel second t else t
    | .orElse first second =>
      let t := { run fuel first { s with isChecked := true } with isChecked := s.isChecked }
      if t.isRunning && t.status != 0 then run fuel second t else t
    | .background c =>
      let t := s.afterPart (run fuel c { s with input := [], limit := none })
      { t with clock := s.clock, flow := s.flow, status := 0 }
    | .group script => runScript fuel script s
    | .subshell script =>
      afterCommand (s.afterPart (endShell fuel (runScript fuel script { s with traps := [] })))
    | .choice branches otherwise => runBranches fuel branches otherwise s
    | .loop isUntil condition body => runLoop isUntil condition body fuel (s.withStatus 0)
    | .each name words body =>
      match words with
      | none => runEach name body fuel s.arguments (s.withStatus 0)
      | some words =>
        let (fields, s) := fieldsOf fuel words s
        runEach name body fuel fields (s.withStatus 0)
    | .select word arms =>
      let (text, s) := textOf fuel word s
      runArms text fuel arms s
    | .define name body =>
      { s with functions := (name, body) :: s.functions.filter fun entry => entry.1 ≠ name,
               status := 0 }

/-- Runs commands one after another. -/
def runScript : Nat → Script → State → State
  | 0, _, s => s.turn .overran
  | _ + 1, [], s => s
  | fuel + 1, c :: cs, s => if s.isRunning then runScript fuel cs (run fuel c s) else s

/-- Runs the script of the first condition that succeeds. -/
def runBranches : Nat → List (Script × Script) → Script → State → State
  | 0, _, _, s => s.turn .overran
  | fuel + 1, [], otherwise, s => runScript fuel otherwise (s.withStatus 0)
  | fuel + 1, (condition, body) :: rest, otherwise, s =>
    let t := { runScript fuel condition { s with isChecked := true } with
      isChecked := s.isChecked }
    if !t.isRunning then t
    else if t.status = 0 then runScript fuel body t
    else runBranches fuel rest otherwise t

/-- Runs a loop. -/
def runLoop (isUntil : Bool) (condition body : Script) : Nat → State → State
  | 0, s => s.turn .overran
  | fuel + 1, s =>
    let last := s.status
    let t := { runScript fuel condition { s with isChecked := true } with
      isChecked := s.isChecked }
    if !t.isRunning then (afterTurn t).2
    else if (t.status = 0) == isUntil then t.withStatus last
    else
      match afterTurn (runScript fuel body t) with
      | (true, s) => runLoop isUntil condition body fuel s
      | (false, s) => s

/-- Runs a loop over fields. -/
def runEach (name : List Char) (body : Script) : Nat → List (List Char) → State → State
  | 0, _, s => s.turn .overran
  | _ + 1, [], s => s
  | fuel + 1, field :: fields, s =>
    match afterTurn (runScript fuel body (s.assign name field)) with
    | (true, s) => runEach name body fuel fields s
    | (false, s) => s

/-- Runs the script of the first arm that matches a text. -/
def runArms (text : List Char) : Nat → List (List Word × Script) → State → State
  | 0, _, s => s.turn .overran
  | _ + 1, [], s => s.withStatus 0
  | fuel + 1, (words, body) :: arms, s =>
    match firstMatch text fuel words s with
    | (true, s) => runScript fuel body (s.withStatus 0)
    | (false, s) => runArms text fuel arms s

/-- Some pattern matches a text. -/
def firstMatch (text : List Char) : Nat → List Word → State → Bool × State
  | 0, _, s => (false, s.turn .overran)
  | _ + 1, [], s => (false, s)
  | fuel + 1, word :: words, s =>
    let (p, s) := patternOf fuel word s
    if p.isMatch text then (true, s) else firstMatch text fuel words s

/-- Runs the commands of a pipeline, each with the output of the one before as its input. -/
def runPipeline : Nat → List Command → State → State
  | 0, _, s => s.turn .overran
  | _ + 1, [], s => s
  | fuel + 1, [c], s => s.afterPart (run fuel c s)
  | fuel + 1, c :: cs, s =>
    let number := s.pipes.length
    let t := run fuel c { s with
      pipes := s.pipes ++ [[]], output := .pipe number, isChecked := true }
    let text := (t.pipes[number]?).getD []
    let after := s.afterPart { t with pipes := t.pipes.take number }
    if after.isRunning then
      { runPipeline fuel cs { after with input := text } with input := s.input }
    else after

/-- Runs the command that fields make up. -/
def runFields : Nat → List (List Char) → State → State
  | 0, _, s => s.turn .overran
  | _ + 1, [], s => s.withStatus 0
  | fuel + 1, name :: arguments, s =>
    match s.functions.find? fun entry => entry.1 = name with
    | some (_, body) => afterFunction s (run fuel body { s with arguments, locals := [] })
    | none =>
      match Builtin.find? name with
      | some change => runPending fuel (change s arguments)
      | none =>
        match String.ofList name, arguments with
        | "exec", [] => s.withStatus 0
        | "exec", program :: _ =>
          let isMissing := !program.contains '/' && !isShellName program
            && (Utility.program? (stringOf program)).isNone
          if isMissing then
            (s.complain (ofString "exec: " ++ program ++ ofString ": not found") 127).turn .exiting
          else ((runFields fuel arguments { s with functions := [] }).turn .exiting).dropTraps
        | "eval", _ => runText fuel (Text.joinWith [' '] arguments) s
        | "command", ['-', 'v'] :: rest => Builtin.locate s rest
        | "command", _ => runFields fuel arguments { s with functions := [] }
        | ".", [] => s.withStatus 2
        | ".", path :: _ =>
          match s.tree.read s.cwd (pathOf path) with
          | .ok bytes => runText fuel (ofBytes bytes) s
          | .error _ =>
            (s.complain (ofString ".: cannot open " ++ path ++ ofString ": No such file") 2).turn
              .exiting
        | text, _ =>
          match Utility.command? (stringOf name) with
          | some utility => s.useUtility (Utility.isPartOfShell text) utility arguments
          | none =>
            if isShellName name then s.afterShell (runShell fuel arguments s)
            else runFile fuel name arguments s

/-- Runs the script that a signal has started. -/
def runPending : Nat → State → State
  | 0, s => s.turn .overran
  | fuel + 1, s =>
    match s.pending with
    | none => s
    | some script =>
      let t := runText fuel script { s with pending := none }
      if t.isRunning then t.withStatus s.status else t

/-- The end of a shell, at which a script may be run. -/
def endShell : Nat → State → State
  | 0, s => s.turn .overran
  | fuel + 1, s =>
    match s.flow, (s.traps.lookup 0).getD [] with
    | .overran, _ => s
    | .signalled .., _ => s
    | _, [] => s
    | flow, script =>
      let t := runText fuel script { s with traps := [], flow := .running }
      if t.isRunning then { t with flow, status := s.status } else t

/-- Runs a file as a script. -/
def runFile : Nat → List Char → List (List Char) → State → State
  | 0, _, _, s => s.turn .overran
  | fuel + 1, name, arguments, s =>
    if !name.contains '/' then s.complain (name ++ ofString ": not found") 127
    else match s.tree.node s.cwd (pathOf name) with
      | .error .notFound =>
        let last := lastPart name
        let isSystem := systemDirs.any fun dir => dir.toList ++ last == name
        if isSystem && isShellName last then s.afterShell (runShell fuel arguments s)
        else match if isSystem then Utility.program? (stringOf last) else none with
          | some utility => s.useUtility false utility arguments
          | none => s.complain (name ++ ofString ": not found") 127
      | .error cause => s.complain (name ++ ofString (": " ++ reason cause)) 126
      | .ok (_, .dir _) => s.complain (name ++ ofString ": Permission denied") 126
      | .ok (_, .file _ mode bytes) =>
        if mode &&& 0o111 = 0 then s.complain (name ++ ofString ": Permission denied") 126
        else
          s.afterShell (endShell fuel
            (runText fuel (ofBytes bytes) { childShell s with name, arguments }))

/-- Runs a shell that is started with arguments. -/
def runShell : Nat → List (List Char) → State → State
  | 0, _, s => s.turn .overran
  | fuel + 1, arguments, s => endShell fuel (runShellArguments [] fuel arguments (childShell s))

/-- Runs the script that the arguments of a shell name, with options. -/
def runShellArguments (letters : List Char) : Nat → List (List Char) → State → State
  | 0, _, s => s.turn .overran
  | fuel + 1, arguments, s =>
    let s := Builtin.setLetters s true letters
    match arguments with
    | [] => runText fuel s.input { s with input := [], name := "sh".toList, arguments := [] }
    | ['-', 'c'] :: text :: rest =>
      runText fuel text { s with name := rest.head?.getD "sh".toList, arguments := rest.drop 1 }
    | ('-' :: letters) :: rest => runShellArguments letters fuel rest s
    | path :: rest =>
      match s.tree.read s.cwd (pathOf path) with
      | .ok bytes => runText fuel (ofBytes bytes) { s with name := path, arguments := rest }
      | .error cause =>
        let why := if cause = .isADirectory then "Is a directory" else openingReason .reading cause
        let s := { s with name := "sh".toList, line := 0 }
        (s.complain (ofString "cannot open " ++ path ++ ofString (": " ++ why)) 2).turn .exiting

/-- Runs the text of a script. -/
def runText : Nat → List Char → State → State
  | 0, _, s => s.turn .overran
  | fuel + 1, text, s => runRest (text.count '\n') fuel text s

/-- Runs what is left of the text of a script that has so many line breaks. -/
def runRest (lines : Nat) : Nat → List Char → State → State
  | 0, _, s => s.turn .overran
  | fuel + 1, text, s =>
    match nextLine lines text with
    | .nothing => s
    | .malformed => (s.complain (ofString "Syntax error") 2).turn .exiting
    | .line commands rest =>
      let s := runScript fuel commands s
      if s.isRunning then runRest lines fuel rest s else s

end

end Bindery.Shell
