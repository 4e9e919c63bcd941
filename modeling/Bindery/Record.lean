import Bindery.Json
import Bindery.Report

/-!
# Records as structured values

Every type of result has a serialized form.  `toJson` writes it and `ofJson?` reads it: a
structure is an object with a member for each field, or an array with an item for each field;
members that belong to no field are ignored, and a field that may be absent may also be null.
An alternative of `Diagnostic` is a member `kind` beside its fields, one of `SourceError` an
object whose only member is an object of its fields.  What is read is a value that was parsed
before; where a text is parsed on the way, an array can stand for that last object, too.  Counts
fit 64 bits, and exit codes 32 bits with a sign.
-/

namespace Bindery

namespace Json

/-! ### Reading members -/

/-- A string. -/
def str? : Json → Option String
  | str value => some value
  | _ => none

/-- A truth value. -/
def bool? : Json → Option Bool
  | bool value => some value
  | _ => none

/-- A count of 64 bits. -/
def count? : Json → Option Nat
  | int value => if 0 ≤ value ∧ value < UInt64.size then some value.toNat else none
  | _ => none

/-- A signed number of 32 bits. -/
def code? : Json → Option Int
  | int value => if -0x80000000 ≤ value ∧ value < 0x80000000 then some value else none
  | _ => none

/-- The path that a string names. -/
def path? (j : Json) : Option Path :=
  j.str?.map Path.mk

/-- A list of values. -/
def list? {α : Type} (read : Json → Option α) : Json → Option (List α)
  | arr items => items.mapM read
  | _ => none

/-- A value that may be null. -/
def optional? {α : Type} (read : Json → Option α) : Json → Option (Option α)
  | null => some none
  | j => (read j).map some

/-- The values of the fields named: the members of an object, where a missing one counts as
null, or the items of an array of just that length. -/
def fields? (names : List String) : Json → Option (List Json)
  | obj members => some (names.map fun name => (field? name members).getD null)
  | arr items => if items.length = names.length then some items else none
  | _ => none

/-- The name of an alternative without fields: a string, or an object with one null member. -/
def tag? : Json → Option String
  | str value => some value
  | obj [(name, null)] => some name
  | _ => none

/-- The serialized form of a list. -/
def ofList {α : Type} (write : α → Json) (items : List α) : Json :=
  arr (items.map write)

/-- The serialized form of a count. -/
def ofNat (n : Nat) : Json :=
  int n

/-- The serialized form of a path. -/
def ofPath (p : Path) : Json :=
  str p.text

end Json

/-- Writes a kind of source. -/
def SourceKind.toJson (kind : SourceKind) : Json :=
  .str kind.name

/-- Reads a kind of source. -/
def SourceKind.ofJson? (j : Json) : Option SourceKind :=
  j.tag?.bind fun name => SourceKind.all.find? fun kind => kind.name == name

namespace Fragment

open Json

/-- Writes a fragment. -/
def toJson (f : Fragment) : Json :=
  obj [("origin", str f.origin), ("preamble_lines", ofList str f.preamble),
    ("body_lines", ofList str f.body)]

/-- Reads a fragment. -/
def ofJson? (j : Json) : Option Fragment :=
  match j.fields? ["origin", "preamble_lines", "body_lines"] with
  | some [origin, preamble, body] => do
    return {
      origin := (← origin.str?)
      preamble := (← preamble.list? str?)
      body := (← body.list? str?) }
  | _ => none

end Fragment

namespace Directive

open Json

/-- The name of a kind of directive. -/
def kindName : DirectiveKind → String
  | .capability => "CapabilityDeclaration"
  | .other => "OtherDeclaration"

/-- Reads a kind of directive. -/
def kind? (j : Json) : Option DirectiveKind :=
  j.tag?.bind fun name =>
    if name = kindName .capability then some .capability
    else if name = kindName .other then some .other
    else none

/-- Writes a directive. -/
def toJson (d : Directive) : Json :=
  obj [("kind", str (kindName d.kind)), ("capability_name", ofOption str d.capability),
    ("raw_text", str d.text)]

/-- Reads a directive. -/
def ofJson? (j : Json) : Option Directive :=
  match j.fields? ["kind", "capability_name", "raw_text"] with
  | some [kind, capability, text] => do
    return {
      kind := (← kind? kind)
      capability := (← capability.optional? str?)
      text := (← text.str?) }
  | _ => none

end Directive

namespace Diagnostic

open Json

/-- Writes a diagnostic. -/
def toJson : Diagnostic → Json
  | unavailable origin capability text =>
    obj [("kind", str "capability_unavailable"), ("origin", str origin),
      ("capability", str capability), ("raw_text", str text)]
  | unparseable origin text =>
    obj [("kind", str "unparseable_capability"), ("origin", str origin), ("raw_text", str text)]
  | conflict origin capability kept dropped =>
    obj [("kind", str "conflicting_options"), ("origin", str origin),
      ("capability", str capability), ("kept", str kept), ("dropped", str dropped)]

/-- Reads the fields of the alternative named. -/
def ofFields? (kind : String) (fields : Json) : Option Diagnostic :=
  match kind with
  | "capability_unavailable" =>
    match fields.fields? ["origin", "capability", "raw_text"] with
    | some [origin, capability, text] => do
      return unavailable (← origin.str?) (← capability.str?) (← text.str?)
    | _ => none
  | "unparseable_capability" =>
    match fields.fields? ["origin", "raw_text"] with
    | some [origin, text] => do return unparseable (← origin.str?) (← text.str?)
    | _ => none
  | "conflicting_options" =>
    match fields.fields? ["origin", "capability", "kept", "dropped"] with
    | some [origin, capability, kept, dropped] => do
      return conflict (← origin.str?) (← capability.str?) (← kept.str?) (← dropped.str?)
    | _ => none
  | _ => none

/-- Reads a diagnostic. -/
def ofJson? : Json → Option Diagnostic
  | obj fields => do ofFields? (← (← field? "kind" fields).str?) (obj fields)
  | arr (kind :: items) => do ofFields? (← kind.str?) (arr items)
  | _ => none

end Diagnostic

namespace Document

open Json

/-- Writes a document. -/
def toJson (d : Document) : Json :=
  obj [("fixed_preamble", ofList str d.fixed),
    ("custom_preamble", ofList Directive.toJson d.custom), ("body", ofList str d.body),
    ("diagnostics", ofList Diagnostic.toJson d.diagnostics)]

/-- Reads a document. -/
def ofJson? (j : Json) : Option Document :=
  match j.fields? ["fixed_preamble", "custom_preamble", "body", "diagnostics"] with
  | some [fixed, custom, body, diagnostics] => do
    return {
      fixed := (← fixed.list? str?)
      custom := (← custom.list? Directive.ofJson?)
      body := (← body.list? str?)
      diagnostics := (← diagnostics.list? Diagnostic.ofJson?) }
  | _ => none

end Document

namespace SourceError

open Json

/-- Writes an error of a source. -/
def toJson : SourceError → Json
  | unreadable origin detail =>
    obj [("Unreadable", obj [("origin", str origin), ("detail", str detail)])]
  | invalidEncoding origin => obj [("InvalidEncoding", obj [("origin", str origin)])]
  | malformedNotebook origin detail =>
    obj [("MalformedNotebook", obj [("origin", str origin), ("detail", str detail)])]
  | malformedSlides origin detail =>
    obj [("MalformedSlides", obj [("origin", str origin), ("detail", str detail)])]

/-- Reads a string that is a field of an alternative. -/
def field? (name : String) (fields : List (String × Json)) : Option String :=
  (Json.field? name fields).bind str?

/-- Reads an error of a source. -/
def ofJson? : Json → Option SourceError
  | obj [("Unreadable", obj fields)] => do
    return unreadable (← field? "origin" fields) (← field? "detail" fields)
  | obj [("InvalidEncoding", obj fields)] => do
    return invalidEncoding (← field? "origin" fields)
  | obj [("MalformedNotebook", obj fields)] => do
    return malformedNotebook (← field? "origin" fields) (← field? "detail" fields)
  | obj [("MalformedSlides", obj fields)] => do
    return malformedSlides (← field? "origin" fields) (← field? "detail" fields)
  | _ => none

end SourceError

namespace Pass

open Json

/-- Writes a pass. -/
def toJson (p : Pass) : Json :=
  obj [("pass", ofNat p.number), ("exit_code", ofOption int p.exitCode),
    ("duration_ms", ofNat p.durationMs)]

/-- Reads a pass. -/
def ofJson? (j : Json) : Option Pass :=
  match j.fields? ["pass", "exit_code", "duration_ms"] with
  | some [number, exitCode, durationMs] => do
    return {
      number := (← number.count?)
      exitCode := (← exitCode.optional? code?)
      durationMs := (← durationMs.count?) }
  | _ => none

end Pass

namespace Compilation

open Json

/-- Writes what came of compiling. -/
def toJson (c : Compilation) : Json :=
  obj [("success", bool c.success), ("message", str c.message),
    ("artifact_path", ofOption ofPath c.artifact), ("log_path", ofPath c.log),
    ("soft_warning", bool c.softWarning), ("passes", ofList Pass.toJson c.passes)]

/-- Reads what came of compiling. -/
def ofJson? (j : Json) : Option Compilation :=
  match j.fields? ["success", "message", "artifact_path", "log_path", "soft_warning",
      "passes"] with
  | some [success, message, artifact, log, softWarning, passes] => do
    return {
      success := (← success.bool?)
      message := (← message.str?)
      artifact := (← artifact.optional? path?)
      log := (← log.path?)
      softWarning := (← softWarning.bool?)
      passes := (← passes.list? Pass.ofJson?) }
  | _ => none

end Compilation

namespace Outcome

open Json

/-- Writes the outcome of a source. -/
def toJson (o : Outcome) : Json :=
  obj [("kind", o.kind.toJson), ("origin", str o.origin), ("body_lines", ofNat o.bodyLines),
    ("assets", ofList ofPath o.assets), ("error", ofOption SourceError.toJson o.error)]

/-- Reads the outcome of a source. -/
def ofJson? (j : Json) : Option Outcome :=
  match j.fields? ["kind", "origin", "body_lines", "assets", "error"] with
  | some [kind, origin, bodyLines, assets, error] => do
    return {
      kind := (← SourceKind.ofJson? kind)
      origin := (← origin.str?)
      bodyLines := (← bodyLines.count?)
      assets := (← assets.list? path?)
      error := (← error.optional? SourceError.ofJson?) }
  | _ => none

end Outcome

namespace Stats

open Json

/-- Writes counts and timings. -/
def toJson (s : Stats) : Json :=
  obj [("total_sources", ofNat s.totalSources), ("extracted_sources", ofNat s.extractedSources),
    ("failed_sources", ofNat s.failedSources), ("custom_directives", ofNat s.customDirectives),
    ("extract_duration_ms", ofNat s.extractDurationMs),
    ("compile_duration_ms", ofNat s.compileDurationMs),
    ("total_duration_ms", ofNat s.totalDurationMs)]

/-- Reads counts and timings. -/
def ofJson? (j : Json) : Option Stats :=
  match j.fields? ["total_sources", "extracted_sources", "failed_sources", "custom_directives",
      "extract_duration_ms", "compile_duration_ms", "total_duration_ms"] with
  | some [total, extracted, failed, directives, extract, compile, overall] => do
    return {
      totalSources := (← total.count?)
      extractedSources := (← extracted.count?)
      failedSources := (← failed.count?)
      customDirectives := (← directives.count?)
      extractDurationMs := (← extract.count?)
      compileDurationMs := (← compile.count?)
      totalDurationMs := (← overall.count?) }
  | _ => none

end Stats

namespace Report

open Json

/-- Writes the report of a request. -/
def toJson (r : Report) : Json :=
  obj [("compilation", r.compilation.toJson), ("sources", ofList Outcome.toJson r.sources),
    ("diagnostics", ofList Diagnostic.toJson r.diagnostics), ("merged_path", ofPath r.merged),
    ("stats", r.stats.toJson)]

/-- The text of a report.  A path that is not Unicode has no serialized form. -/
def serialize (isUnicode : Path → Bool) (r : Report) : Except String String :=
  if r.paths.all isUnicode then .ok r.toJson.pretty
  else .error "path contains invalid UTF-8 characters"

/-- Reads the report of a request. -/
def ofJson? (j : Json) : Option Report :=
  match j.fields? ["compilation", "sources", "diagnostics", "merged_path", "stats"] with
  | some [compilation, sources, diagnostics, merged, stats] => do
    return {
      compilation := (← Compilation.ofJson? compilation)
      sources := (← sources.list? Outcome.ofJson?)
      diagnostics := (← diagnostics.list? Diagnostic.ofJson?)
      merged := (← merged.path?)
      stats := (← Stats.ofJson? stats) }
  | _ => none

end Report

end Bindery
