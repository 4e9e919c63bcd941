import Bindery.Text.Digit

/-!
# Settings of the command line

A `Setting` is an option of the command line.  A setting has a long name, and some have a
letter; most can also be given by a variable of the environment.  `Setting.accepts` says which
values it takes: a `flag` takes none on the command line and a truth value from the environment.
-/

namespace Bindery

/-- The values of a setting. -/
inductive ValueKind where
  /-- Off, or on where the setting is named. -/
  | flag
  /-- A path, which is not empty. -/
  | path
  | text
  /-- A number that fits 64 bits. -/
  | count
deriving DecidableEq, Repr

/-- An option of the command line. -/
inductive Setting where
  | latex
  | slides
  | notebook
  | output
  | workDir
  | compiler
  | kpsewhich
  | timeout
  | strict
  | id
  | json
  | noProgress
  | verbose
  | quiet
  | help
  | version
deriving DecidableEq, Repr

namespace Setting

/-- All settings, in the order in which the environment is asked for them. -/
def all : List Setting :=
  [latex, slides, notebook, output, workDir, compiler, kpsewhich, timeout, strict, id, json,
    noProgress, verbose, quiet, help, version]

/-- The long name. -/
def name : Setting → String
  | latex => "latex"
  | slides => "slides"
  | notebook => "notebook"
  | output => "output"
  | workDir => "work-dir"
  | compiler => "compiler"
  | kpsewhich => "kpsewhich"
  | timeout => "timeout"
  | strict => "strict"
  | id => "id"
  | json => "json"
  | noProgress => "no-progress"
  | verbose => "verbose"
  | quiet => "quiet"
  | help => "help"
  | version => "version"

/-- The letter. -/
def letter? : Setting → Option Char
  | output => some 'o'
  | verbose => some 'v'
  | quiet => some 'q'
  | help => some 'h'
  | version => some 'V'
  | _ => none

/-- The variable of the environment. -/
def environmentName? : Setting → Option String
  | output => some "TEXFUSE_OUTPUT"
  | workDir => some "TEXFUSE_WORK_DIR"
  | compiler => some "TEXFUSE_COMPILER"
  | kpsewhich => some "TEXFUSE_KPSEWHICH"
  | timeout => some "TEXFUSE_TIMEOUT"
  | strict => some "TEXFUSE_STRICT"
  | json => some "TEXFUSE_JSON"
  | noProgress => some "TEXFUSE_NO_PROGRESS"
  | verbose => some "TEXFUSE_VERBOSE"
  | quiet => some "TEXFUSE_QUIET"
  | _ => none

/-- The values it takes. -/
def valueKind : Setting → ValueKind
  | latex => .path
  | slides => .path
  | notebook => .path
  | output => .path
  | workDir => .path
  | compiler => .text
  | kpsewhich => .text
  | timeout => .count
  | id => .text
  | _ => .flag

/-- It may be given more than once. -/
def isRepeatable (s : Setting) : Bool :=
  s = latex || s = slides || s = notebook

/-- What it is for. -/
def purpose : Setting → String
  | latex => "LaTeX source (.tex). Repeatable"
  | slides => "PowerPoint deck (.pptx). Repeatable"
  | notebook => "Jupyter notebook (.ipynb). Repeatable"
  | output => "Copy the compiled PDF to this path"
  | workDir => "Working directory for sources, assets, log and artifact"
  | compiler => "Compiler program [default: xelatex]"
  | kpsewhich => "Package probe program [default: kpsewhich]"
  | timeout => "Per-pass compiler timeout in seconds [default: 300]"
  | strict => "Abort when any source fails to extract"
  | id => "Request id [default: cli]"
  | json => "Output structured JSON instead of the PDF path"
  | noProgress => "Disable progress output"
  | verbose => "Enable debug output"
  | quiet => "Suppress all output except errors"
  | help => "Print help"
  | version => "Print version"

/-- The setting with a long name. -/
def ofName? (name : List Char) : Option Setting :=
  all.find? fun s => s.name.toList = name

/-- The setting with a letter. -/
def ofLetter? (letter : Char) : Option Setting :=
  all.find? fun s => s.letter? = some letter

/-- It takes no value on the command line. -/
def isFlag (s : Setting) : Bool :=
  s.valueKind = .flag

/-- The number that a value denotes; a plus sign may stand in front. -/
def count? (value : List Char) : Option Nat :=
  let digits := match value with
    | '+' :: rest => rest
    | _ => value
  (Text.natOf? digits).filter (· < UInt64.size)

/-- It takes a value. -/
def accepts (s : Setting) (value : String) : Bool :=
  match s.valueKind with
  | .flag => value = "true" || value = "false"
  | .path => !value.isEmpty
  | .text => true
  | .count => (count? value.toList).isSome

end Setting

end Bindery
