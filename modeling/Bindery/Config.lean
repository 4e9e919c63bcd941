import Bindery.Report
import Bindery.Text.Blank
import Bindery.Text.Quoted

/-!
# Configuration

A `Config` says how to call the compiler and the program that looks packages up, whether a
merge may leave broken sources out, and what the merged document is called.  `Config.check`
accepts a configuration whose programs are not blank and whose two file names are plain.
-/

namespace Bindery

/-- How to call the compiler. -/
structure CompilerConfig where
  program : String := "xelatex"
  /-- The arguments in front of the name of the document. -/
  flags : List String := ["-synctex=1", "-interaction=nonstopmode"]
  /-- The longest that one pass may take, in seconds. -/
  passTimeout : Nat := 300
  /-- The log, inside the working directory. -/
  logName : String := "latex_output.log"
  /-- The extension of the artifact, without the dot. -/
  artifactExtension : String := "pdf"
deriving DecidableEq, Repr

/-- How to look a package up. -/
structure LookupConfig where
  program : String := "kpsewhich"
  /-- What follows the name of a package in the name of its file. -/
  suffix : String := ".sty"
deriving DecidableEq, Repr

/-- How to handle a request. -/
structure Config where
  compiler : CompilerConfig := {}
  lookup : LookupConfig := {}
  /-- Sources that cannot be extracted are left out of the merge. -/
  allowPartial : Bool := true
  /-- The file stem of the merged document and of its artifact. -/
  mergedStem : String := "merged"
  /-- Progress is announced. -/
  announces : Bool := false
deriving DecidableEq, Repr

/-- The number of passes over each document.  The second resolves the references that the
first one wrote down. -/
def compilerPasses : Nat := 2

/-- The name names one file in the directory where it is looked up. -/
def isPlainFileName (name : String) : Bool :=
  !name.isEmpty && !name.toList.contains '/' && !name.toList.contains '\\' && name != "."
    && name != ".."

namespace Config

/-- The file name of the merged document. -/
def mergedName (c : Config) : String :=
  c.mergedStem ++ ".tex"

/-- Sets the longest time of a pass, which is at least a second. -/
def withPassTimeout (c : Config) (seconds : Nat) : Config :=
  { c with compiler.passTimeout := max seconds 1 }

/-- The first fault of a configuration. -/
def fault? (c : Config) : Option ConfigFault :=
  if Text.isBlankText c.compiler.program.toList then some .blankCompiler
  else if Text.isBlankText c.lookup.program.toList then some .blankProbe
  else if !isPlainFileName c.mergedStem then some (.stemNotPlain c.mergedStem)
  else if !isPlainFileName c.compiler.logName then some (.logNameNotPlain c.compiler.logName)
  else none

/-- The configuration, if it has no fault. -/
def check (c : Config) : Except RequestError Config :=
  match c.fault? with
  | some fault => .error (.invalidConfig fault)
  | none => .ok c

/-! ### A configuration in one line -/

/-- A record in one line: its name, and its fields between braces. -/
def recordText (name : String) (fields : List (String × String)) : String :=
  name ++ " \x7b " ++ ", ".intercalate (fields.map fun (key, value) => key ++ ": " ++ value)
    ++ " \x7d"

/-- A truth value in one line. -/
def boolText (b : Bool) : String :=
  if b then "true" else "false"

/-- A configuration in one line. -/
def describe (c : Config) : String :=
  recordText "PipelineConfig" [
    ("compiler", recordText "CompilerConfig" [
      ("program", Text.quoted c.compiler.program),
      ("flags", "[" ++ ", ".intercalate (c.compiler.flags.map Text.quoted) ++ "]"),
      ("pass_timeout_secs", toString c.compiler.passTimeout),
      ("log_file_name", Text.quoted c.compiler.logName),
      ("artifact_extension", Text.quoted c.compiler.artifactExtension)]),
    ("probe", recordText "ProbeConfig" [
      ("program", Text.quoted c.lookup.program),
      ("resource_suffix", Text.quoted c.lookup.suffix)]),
    ("allow_partial", boolText c.allowPartial),
    ("merged_stem", Text.quoted c.mergedStem),
    ("progress_callback",
      if c.announces then "Some(\"<dyn PipelineProgressCallback>\")" else "None")]

end Config

end Bindery
