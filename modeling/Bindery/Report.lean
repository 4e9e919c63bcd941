import Bindery.Document
import Bindery.Merge
import Bindery.OsError
import Bindery.Source
import Bindery.Text.Quoted

/-!
# Results

A `Report` tells what came of a request that reached the compiler: the `Compilation`, what
happened to each source, and what merging left out.  `Report.result` reduces it to the path of
the artifact or one error.  A `RequestError` stops a request.
-/

namespace Bindery

/-- One run of the compiler. -/
structure Pass where
  /-- The number of the pass, counted from one. -/
  number : Nat
  /-- The exit code; none if a signal ended the compiler. -/
  exitCode : Option Int
  durationMs : Nat := 0
deriving DecidableEq, Repr

/-- What came of compiling a document. -/
structure Compilation where
  success : Bool
  /-- A confirmation, or the reason of the failure. -/
  message : String
  /-- The artifact, if compiling succeeded. -/
  artifact : Option Path
  /-- The file that the compiler's output was appended to. -/
  log : Path
  /-- The last pass failed, but only for want of optional files. -/
  softWarning : Bool
  passes : List Pass
deriving DecidableEq, Repr

namespace Compilation

/-- A successful compilation. -/
def succeeded (artifact log : Path) (softWarning : Bool) (passes : List Pass) : Compilation :=
  { success := true, message := "Compilation successful.", artifact := some artifact, log,
    softWarning, passes }

/-- A failed compilation. -/
def failed (message : String) (log : Path) (passes : List Pass) : Compilation :=
  { success := false, message, artifact := none, log, softWarning := false, passes }

end Compilation

/-- What happened to one source. -/
structure Outcome where
  kind : SourceKind
  /-- The name under which the source is kept. -/
  origin : String
  /-- The number of body lines it contributed. -/
  bodyLines : Nat
  /-- The files written for it. -/
  assets : List Path
  /-- Why it was left out, if it was. -/
  error : Option SourceError
deriving DecidableEq, Repr

/-- The source was extracted. -/
def Outcome.isOk (o : Outcome) : Bool :=
  o.error.isNone

/-- Counts and timings of a request. -/
structure Stats where
  totalSources : Nat
  extractedSources : Nat
  failedSources : Nat
  customDirectives : Nat
  extractDurationMs : Nat := 0
  compileDurationMs : Nat := 0
  totalDurationMs : Nat := 0
deriving DecidableEq, Repr

/-- What is wrong with a configuration. -/
inductive ConfigFault where
  | blankCompiler
  | blankProbe
  | stemNotPlain (stem : String)
  | logNameNotPlain (name : String)
deriving DecidableEq, Repr

/-- The wording of a fault. -/
def ConfigFault.message : ConfigFault → String
  | blankCompiler => "Compiler program must not be empty"
  | blankProbe => "Probe program must not be empty"
  | stemNotPlain stem =>
    "Merged document stem must be a plain file name, got " ++ Text.quoted stem
  | logNameNotPlain name => "Log file name must be a plain file name, got " ++ Text.quoted name

/-- What stops a request. -/
inductive RequestError where
  /-- The working directory cannot be created. -/
  | workspaceCreate (path : Path) (cause : OsError)
  | workspaceNotWritable (path : Path)
  | writeFailed (path : Path) (cause : OsError)
  | allSourcesFailed (total : Nat) (firstError : String)
  | partialExtraction (failed total : Nat)
  | malformedFragment (malformed : MalformedFragment)
  | compilationFailed (message : String)
  | outputWriteFailed (path : Path) (cause : OsError)
  | invalidConfig (fault : ConfigFault)
deriving DecidableEq, Repr

namespace RequestError

/-- The sentence that reports the error. -/
def message : RequestError → String
  | workspaceCreate path cause =>
    "Cannot create working directory '" ++ path.text ++ "': " ++ cause.message
  | workspaceNotWritable path => "Cannot write to working directory '" ++ path.text ++ "'"
  | writeFailed path cause => "Failed to write '" ++ path.text ++ "': " ++ cause.message
  | allSourcesFailed total firstError =>
    "All " ++ toString total ++ " sources failed to extract.\nFirst error: " ++ firstError
  | partialExtraction failed total =>
    toString failed ++ "/" ++ toString total
      ++ " sources failed to extract and partial merges are disabled"
  | malformedFragment m =>
    "Malformed fragment '" ++ m.origin ++ "': line " ++ toString m.line ++ " " ++ m.fault.message
  | compilationFailed message => "Compilation failed: " ++ message
  | outputWriteFailed path cause =>
    "Failed to write output file '" ++ path.text ++ "': " ++ cause.message
  | invalidConfig fault => "Invalid configuration: " ++ fault.message

/-- The error of the machine behind the error. -/
def cause? : RequestError → Option OsError
  | workspaceCreate _ cause => some cause
  | writeFailed _ cause => some cause
  | outputWriteFailed _ cause => some cause
  | _ => none

end RequestError

/-- Everything a request produced. -/
structure Report where
  compilation : Compilation
  sources : List Outcome
  diagnostics : List Diagnostic
  /-- The merged document. -/
  merged : Path
  stats : Stats
deriving DecidableEq, Repr

/-- The paths in a report. -/
def Report.paths (r : Report) : List Path :=
  r.compilation.artifact.toList ++ [r.compilation.log, r.merged] ++ r.sources.flatMap Outcome.assets

/-- The artifact of a successful compilation, or its failure as an error. -/
def Report.result (r : Report) : Except RequestError Path :=
  match r.compilation.artifact with
  | some path => if r.compilation.success then .ok path
    else .error (.compilationFailed r.compilation.message)
  | none => .error (.compilationFailed r.compilation.message)

end Bindery
