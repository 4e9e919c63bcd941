import Bindery.Action
import Bindery.Config
import Bindery.Report
import Bindery.Text.Upper

/-!
# Compiling a document

`compile` runs the compiler over a document, always `compilerPasses` times.  An artifact of an
earlier run is removed first, and everything the compiler prints is appended to the log.  The
last pass decides: it has to succeed, or to fail only because an optional file is missing, which
the part of the log that belongs to it shows; and the artifact has to be there.  What goes wrong
on the way (`CompileFault`) is reported as a failed compilation.
-/

namespace Bindery

/-- What stops compiling before the last pass has ended. -/
inductive CompileFault where
  /-- The document has no file name. -/
  | noFileName (document : Path)
  | staleArtifact (path : Path) (cause : OsError)
  | log (path : Path) (cause : OsError)
  | launch (program : String) (cause : OsError)
  | wait (program : String) (cause : OsError)
  /-- A pass took too long. -/
  | overrun (pass seconds : Nat)
deriving DecidableEq, Repr

/-- The wording of a fault. -/
def CompileFault.message : CompileFault → String
  | noFileName document => "the document path '" ++ document.text ++ "' has no file name"
  | staleArtifact path cause =>
    "cannot remove stale artifact '" ++ path.text ++ "': " ++ cause.message
  | log path cause => "cannot open log '" ++ path.text ++ "': " ++ cause.message
  | launch program cause => "failed to launch '" ++ program ++ "': " ++ cause.message
  | wait program cause => "waiting for '" ++ program ++ "' failed: " ++ cause.message
  | overrun pass seconds =>
    "pass " ++ toString pass ++ " did not finish within " ++ toString seconds
      ++ "s and was killed"

namespace Compile

/-- What the compiler prints when a file is missing that the document can do without. -/
def missingFileSign : String := "LaTeX Error: File \x60"

/-- An exit code in a message. -/
def codeText : Option Int → String
  | some code => toString code
  | none => "signal"

/-- What all passes over a document have in common. -/
structure Task where
  config : CompilerConfig
  /-- The directory in which the compiler runs. -/
  directory : Path
  /-- The file name of the document. -/
  fileName : String
  /-- Passes are announced. -/
  announces : Bool
deriving DecidableEq, Repr

/-- The log in a directory. -/
def logIn (c : CompilerConfig) (directory : Path) : Path :=
  directory.join c.logName

namespace Task

/-- The log of the passes. -/
def log (t : Task) : Path :=
  logIn t.config t.directory

/-- Where the artifact is expected. -/
def artifact (t : Task) : Path :=
  t.directory.join (Path.stemOf t.fileName ++ "." ++ t.config.artifactExtension)

/-- The call of the compiler in a pass that prints to an open log. -/
def invocation (t : Task) (log : Handle) : Invocation where
  program := t.config.program
  arguments := t.config.flags ++ [t.fileName]
  directory := some t.directory
  output := some log
  limit := some t.config.passTimeout

/-- Announces an event, if passes are announced. -/
def announce (t : Task) (event : Event) : Job Unit :=
  if t.announces then act (.announce event) else pure ()

end Task

/-- Removes the artifact of an earlier run. -/
def removeStale (artifact : Path) : Job (Except CompileFault Unit) := do
  match ← act (.remove artifact) with
  | .ok () => return .ok ()
  | .error .notFound => return .ok ()
  | .error cause => return .error (.staleArtifact artifact cause)

/-- The length of the log, which is zero if there is none. -/
def logLength (log : Path) : Job Nat := do
  match ← act (.stat log) with
  | .ok stat => return stat.size
  | .error _ => return 0

/-- The line that the log gets after a pass that failed. -/
def failureLine (program : String) (exitCode : Option Int) : String :=
  "\n" ++ program ++ " exited with code " ++ codeText exitCode ++ "\n"

/-- Runs the compiler once.  The answer is its exit code, if it has one. -/
def runPass (t : Task) (pass : Nat) : Job (Except CompileFault (Option Int)) := do
  match ← act (.openEnd t.log) with
  | .error cause => return .error (.log t.log cause)
  | .ok log =>
    match ← act (.launch (t.invocation log)) with
    | .error cause => return .error (.launch t.config.program cause)
    | .ok (.lost cause) => return .error (.wait t.config.program cause)
    | .ok .overran => return .error (.overrun pass t.config.passTimeout)
    | .ok ending =>
      if ending = .exited 0 then return .ok ending.code?
      else
        match ← act (.openEnd t.log) with
        | .error cause => return .error (.log t.log cause)
        | .ok log =>
          let line := failureLine t.config.program ending.code?
          let _ ← act (.append log (Text.utf8 line.toList))
          return .ok ending.code?

/-- Runs the passes of the given numbers, and adds them to those that ran before.  The answer
is also what stopped them, or the length of the log before the last pass. -/
def runPasses (t : Task) (ran : List Pass) (lastStart : Nat) :
    List Nat → Job (Except CompileFault Nat × List Pass)
  | [] => return (.ok lastStart, ran)
  | pass :: passes => do
    let lastStart ← if passes.isEmpty then logLength t.log else pure lastStart
    t.announce (.passBegun pass compilerPasses)
    match ← runPass t pass with
    | .error fault => return (.error fault, ran)
    | .ok exitCode =>
      t.announce (.passEnded pass compilerPasses exitCode)
      runPasses t (ran ++ [{ number := pass, exitCode }]) lastStart passes

/-- The text that the log holds from an offset on. -/
def logSince (log : Path) (offset : Nat) : Job (List Char) := do
  match ← act (.read log) with
  | .ok bytes => return Text.decodeLossy (bytes.drop offset)
  | .error _ => return []

/-- The text contains a word. -/
def occurs (word : List Char) : List Char → Bool
  | [] => word.isEmpty
  | c :: cs => word.isPrefixOf (c :: cs) || occurs word cs

/-- The failure of a compiler that ended with an exit code. -/
def failureMessage (t : Task) (exitCode : Option Int) : String :=
  t.config.program ++ " failed with exit code " ++ codeText exitCode ++ ". Check log: "
    ++ t.log.text

/-- The failure of a compiler that left no artifact. -/
def noArtifactMessage (t : Task) : String :=
  String.ofList (Text.toUpper t.config.artifactExtension.toList)
    ++ " file not generated. Check log: " ++ t.log.text

/-- Looks for the artifact. -/
def judgeArtifact (t : Task) (softWarning : Bool) (passes : List Pass) : Job Compilation := do
  match ← act (.stat t.artifact) with
  | .ok _ => return .succeeded t.artifact t.log softWarning passes
  | .error _ => return .failed (noArtifactMessage t) t.log passes

/-- Judges passes that all ended; the log had the given length before the last one. -/
def judge (t : Task) (lastStart : Nat) (passes : List Pass) : Job Compilation := do
  let exitCode := passes.getLast?.bind Pass.exitCode
  if exitCode = some 0 then judgeArtifact t false passes
  else
    let output ← logSince t.log lastStart
    if occurs missingFileSign.toList output then judgeArtifact t true passes
    else return .failed (failureMessage t exitCode) t.log passes

/-- The failed compilation that a fault leads to.  Its message ends with the log, if there is
one. -/
def fail (log : Path) (fault : CompileFault) (passes : List Pass) : Job Compilation := do
  let message := "LaTeX compilation error: " ++ fault.message
  match ← act (.read log) with
  | .ok bytes =>
    let text := String.ofList (Text.decodeLossy bytes)
    return .failed (message ++ "\n\nLog Output:\n" ++ text) log passes
  | .error _ => return .failed message log passes

/-- Runs all passes. -/
def runAll (t : Task) : Job (Except CompileFault Nat × List Pass) := do
  match ← removeStale t.artifact with
  | .error fault => return (.error fault, [])
  | .ok () => runPasses t [] 0 ((List.range compilerPasses).map (· + 1))

end Compile

open Compile in
/-- Compiles a document in a directory. -/
def compile (c : CompilerConfig) (announces : Bool) (document directory : Path) :
    Job Compilation := do
  match document.fileName? with
  | none => fail (logIn c directory) (.noFileName document) []
  | some fileName =>
    let t : Compile.Task := { config := c, directory, fileName, announces }
    match ← runAll t with
    | (.error fault, passes) => fail t.log fault passes
    | (.ok lastStart, passes) => judge t lastStart passes

end Bindery
