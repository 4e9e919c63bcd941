import Bindery.CommandLine.Given
import Bindery.Config
import Bindery.Source

/-!
# What a command line asks for

`Settings` are the values of all settings, given or not.  `Settings.sources` are the named files
in the order of the kinds, and `Settings.config` is the configuration of the request.
-/

namespace Bindery

/-- The values of all settings. -/
structure Settings where
  /-- The named files, in the order of the kinds. -/
  sources : List (SourceKind × Path)
  output : Option Path
  workDir : Option Path
  compiler : String
  kpsewhich : String
  timeout : Nat
  strict : Bool
  id : String
  json : Bool
  noProgress : Bool
  verbose : Bool
  quiet : Bool
deriving DecidableEq, Repr

namespace Settings

/-- The setting that names the files of a kind. -/
def sourceSetting : SourceKind → Setting
  | .latex => .latex
  | .slides => .slides
  | .notebook => .notebook

/-- The files of a kind. -/
def sourcesOf (g : Given) (kind : SourceKind) : List (SourceKind × Path) :=
  (g.values (sourceSetting kind)).map fun path => (kind, ⟨path⟩)

/-- A flag is on. -/
def isOn (g : Given) (s : Setting) : Bool :=
  g.value? s = some "true"

/-- The values of all settings, of which some are given. -/
def ofGiven (g : Given) : Settings where
  sources := SourceKind.all.flatMap (sourcesOf g)
  output := (g.value? .output).map Path.mk
  workDir := (g.value? .workDir).map Path.mk
  compiler := (g.value? .compiler).getD ({} : CompilerConfig).program
  kpsewhich := (g.value? .kpsewhich).getD ({} : LookupConfig).program
  timeout := ((g.value? .timeout).bind fun value => Setting.count? value.toList).getD
    ({} : CompilerConfig).passTimeout
  strict := isOn g .strict
  id := (g.value? .id).getD "cli"
  json := isOn g .json
  noProgress := isOn g .noProgress
  verbose := isOn g .verbose
  quiet := isOn g .quiet

/-- Progress is shown. -/
def showsProgress (s : Settings) : Bool :=
  !s.quiet && !s.noProgress && !s.json

/-- The configuration of the request. -/
def config (s : Settings) : Except RequestError Config :=
  let c : Config := {
    compiler := { program := s.compiler }
    lookup := { program := s.kpsewhich }
    allowPartial := !s.strict
    announces := s.showsProgress }
  (c.withPassTimeout s.timeout).check

end Settings

end Bindery
