import Bindery.CommandLine.Failure
import Bindery.CommandLine.Progress
import Bindery.CommandLine.Settings
import Bindery.Intake
import Bindery.Record
import Bindery.Request

/-!
# Runs of the program

`runProgram` is the whole program: it reads the command line, handles one request, reports the
result, and answers with the exit status.  Without a working directory of its own a run makes a
temporary one, and `leave` says what becomes of that.  The text of a `Path` is what is printed of
it; only the structured result has to know which paths are Unicode, and so the very same as their
texts (`isUnicode`).
-/

namespace Bindery

namespace CommandLine

/-! ### Sources -/

/-- Reads the named files. -/
def readSources : List (SourceKind × Path) → Job (Except Halt (List SourceFile))
  | [] => return .ok []
  | (kind, path) :: rest => do
    match ← SourceFile.read kind path with
    | .error cause =>
      return .error (.failed {
        subject := "Failed to read " ++ kind.name ++ " source " ++ Text.quoted path.text
        causes := [cause.message] })
    | .ok source => (readSources rest).andThen fun sources => return .ok (source :: sources)

/-! ### Reports -/

/-- A line about something that was left out. -/
def remark (text : String) : String :=
  "  " ++ Style.yellow.apply "!" ++ " " ++ Style.dim.apply text

/-- The lines about a result: the sources that failed, the diagnostics of the merge, and
whether files were missing. -/
def remarks (r : Report) : List String :=
  (r.sources.filterMap fun o => o.error.map fun e =>
      "  " ++ Style.red.apply "✗" ++ " " ++ e.message)
    ++ r.diagnostics.map (fun d => remark d.message)
    ++ if r.compilation.softWarning then
        [remark ("missing optional files, see " ++ r.compilation.log.text)]
      else []

/-- The line about an artifact that was copied. -/
def summary (r : Report) (output : Path) : String :=
  let mark := if r.stats.failedSources = 0 then Style.green.apply "✔" else Style.cyan.apply "⚠"
  mark ++ "  " ++ toString r.stats.extractedSources ++ "/" ++ toString r.stats.totalSources
    ++ " sources  " ++ toString r.stats.totalDurationMs ++ "ms  →  "
    ++ Style.bold.apply output.text

/-- Reports a result: as a structured value, or in lines, or not at all. -/
def reportResult (isUnicode : Path → Bool) (s : Settings) (r : Report) (closing : List String) :
    Job (Except Halt Unit) :=
  if s.json then
    match r.serialize isUnicode with
    | .error cause =>
      return .error (.failed { subject := "Failed to serialise output", causes := [cause] })
    | .ok text => printLine text
  else if s.quiet then return .ok ()
  else complainLines (remarks r ++ closing)

/-! ### Requests -/

/-- The failure of the request of a run. -/
def failed (e : RequestError) : Halt :=
  .failed (Failure.ofRequest "Processing failed" e)

/-- Handles the request and copies the artifact to a file. -/
def runToFile (isUnicode : Path → Bool) (s : Settings) (context : Context) (c : Config)
    (sources : List SourceFile) (output : Path) : Job (Except Halt Unit) :=
  (showProgress s.showsProgress (processToFile context c sources output)).andThen fun
    | .error e => return .error (failed e)
    | .ok r => reportResult isUnicode s r [summary r output]

/-- Handles the request and prints where the artifact is. -/
def runInPlace (isUnicode : Path → Bool) (s : Settings) (context : Context) (c : Config)
    (sources : List SourceFile) : Job (Except Halt Unit) :=
  (showProgress s.showsProgress (process context c sources)).andThen fun
    | .error e => return .error (failed e)
    | .ok r => (reportResult isUnicode s r []).andThen fun () =>
      match r.result with
      | .error e => return .error (failed e)
      | .ok artifact => if s.json then return .ok () else printLine artifact.text

/-- Handles the request in a directory. -/
def runIn (isUnicode : Path → Bool) (s : Settings) (c : Config) (sources : List SourceFile)
    (directory : Path) : Job (Except Halt Unit) :=
  let context := Context.looking s.id directory c
  match s.output with
  | some output => runToFile isUnicode s context c sources output
  | none => runInPlace isUnicode s context c sources

/-- A temporary directory is not kept after a run in it: the artifact was copied, or the run was
broken off. -/
def isDropped (s : Settings) : Except Halt Unit → Bool
  | .ok () => s.output.isSome
  | .error (.failed _) => false
  | .error .panicked => true

/-- What becomes of a temporary directory after a run in it. -/
def leave (s : Settings) (directory : Path) (result : Except Halt Unit) :
    Job (Except Halt Unit) := do
  if isDropped s result then
    let _ ← act (.removeAll directory)
    return result
  else if s.quiet then return result
  else
    (complainLine (Style.dim.apply ("Working directory: " ++ directory.text))).andThen fun () =>
      return result

/-- Handles the request in a temporary directory, which is kept if the artifact or the log can
be found only there. -/
def runInTemporary (isUnicode : Path → Bool) (s : Settings) (c : Config)
    (sources : List SourceFile) : Job (Except Halt Unit) := do
  match ← act .makeTemporary with
  | .error cause =>
    return .error (.failed {
      subject := "Failed to create a temporary working directory", causes := [cause.message] })
  | .ok directory => leave s directory (← runIn isUnicode s c sources directory)

/-- Handles the request in the directory that it has to work in. -/
def runPlaced (isUnicode : Path → Bool) (s : Settings) (c : Config) (sources : List SourceFile) :
    Job (Except Halt Unit) :=
  match s.workDir with
  | some directory => runIn isUnicode s c sources directory
  | none => runInTemporary isUnicode s c sources

/-- Does what the settings ask for with the sources that were read. -/
def proceed (isUnicode : Path → Bool) (s : Settings) (sources : List SourceFile) :
    Job (Except Halt Unit) :=
  if sources.isEmpty then
    return .error (.failed {
      subject := "No sources given; pass --latex, --slides or --notebook" })
  else match s.config with
    | .error e => return .error (.failed (Failure.ofRequest "Invalid configuration" e))
    | .ok c => runPlaced isUnicode s c sources

/-- Does what the settings ask for. -/
def run (isUnicode : Path → Bool) (s : Settings) : Job (Except Halt Unit) :=
  (readSources s.sources).andThen (proceed isUnicode s)

/-- Ends with an exit status, after a failure is reported as far as that can be printed. -/
def close : Except Halt Unit → Job Nat
  | .ok () => return 0
  | .error (.failed failure) => do
    let _ ← act (.complain failure.report)
    return 1
  | .error .panicked => return 101

/-! ### Help -/

/-- The name and the version of the program. -/
def versionLine : String := "texfuse 0.1.0"

/-- How a setting is given. -/
def usageOf (s : Setting) : String :=
  let letter := match s.letter? with
    | some c => String.ofList ['-', c, ',', ' ']
    | none => "    "
  let value := match s.valueKind with
    | .flag => ""
    | .path => " <FILE>"
    | .text => " <TEXT>"
    | .count => " <N>"
  "  " ++ letter ++ "--" ++ s.name ++ value

/-- The text that explains the command line. -/
def helpText : String :=
  "Merge LaTeX, PowerPoint and Jupyter sources into one LaTeX document and compile it\n\n"
    ++ "Usage: texfuse [OPTIONS]\n\nOptions:\n"
    ++ "\n".intercalate (Setting.all.map fun s => usageOf s ++ "\n          " ++ s.purpose)

end CommandLine

open CommandLine in
/-- The whole program.  The answer is its exit status. -/
def runProgram (arguments : List String) (environment : String → Option String)
    (isUnicode : Path → Bool := fun _ => true) : Job Nat := do
  match Given.ofArguments arguments environment with
  | .error .version =>
    let _ ← printLine versionLine
    return 0
  | .error .help =>
    let _ ← printLine helpText
    return 0
  | .error (.fault fault) =>
    let _ ← complainLine ("error: " ++ fault.message ++ "\n\nFor more information, try '--help'.")
    return 2
  | .ok given => close (← run isUnicode (Settings.ofGiven given))

end Bindery
