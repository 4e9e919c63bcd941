import Bindery.Compile
import Bindery.Extraction
import Bindery.Lookup
import Bindery.Workspace

/-!
# Requests

`process` handles one request: it keeps the sources in the working directory, extracts and
merges them, and compiles the merged document.  Sources are handled by kind, and within a kind
in the order in which they were handed in.  `processToFile` also copies the artifact to a file,
which is then either what it was before or the complete artifact.
-/

namespace Bindery

/-- What a request needs besides its sources and its configuration. -/
structure Context where
  /-- The name of the request. -/
  id : String
  directory : Path
  /-- Finds out whether a package is available. -/
  isAvailable : String → Job Bool

namespace Context

/-- The context in which the configured program looks packages up. -/
def looking (id : String) (directory : Path) (c : Config) : Context :=
  { id, directory, isAvailable := c.lookup.isAvailable }

/-- The context in which the caller is asked for packages. -/
def consulting (id : String) (directory : Path) : Context :=
  { id, directory, isAvailable := fun name => act (.consult name) }

/-- A context in one line. -/
def describe (c : Context) : String :=
  Config.recordText "RequestContext" [
    ("id", Text.quoted c.id),
    ("working_dir", Text.quoted c.directory.text),
    ("probe", Text.quoted "<dyn CapabilityProbe>")]

end Context

namespace Request

/-- A source in the working directory. -/
structure Kept where
  kind : SourceKind
  path : Path
deriving DecidableEq, Repr

/-- A source that was extracted, or not. -/
structure Extraction where
  kind : SourceKind
  /-- The name under which the source is kept. -/
  origin : String
  result : Except SourceError Extracted

/-- The outcome of an extraction. -/
def Extraction.outcome (x : Extraction) : Outcome :=
  match x.result with
  | .ok extracted =>
    { kind := x.kind, origin := x.origin, bodyLines := extracted.fragment.body.length,
      assets := extracted.assets, error := none }
  | .error e =>
    { kind := x.kind, origin := x.origin, bodyLines := 0, assets := [], error := some e }

/-- The fragment of an extraction, if there is one. -/
def Extraction.fragment? (x : Extraction) : Option Fragment :=
  match x.result with
  | .ok extracted => some extracted.fragment
  | .error _ => none

/-- Announces an event, if progress is announced. -/
def announce (c : Config) (event : Event) : Job Unit :=
  if c.announces then act (.announce event) else pure ()

/-- The sources in the order in which they are handled, each with its number within its
kind. -/
def inOrder (sources : List SourceFile) : List (SourceFile × Nat) :=
  SourceKind.all.flatMap fun kind => (sources.filter fun s => s.kind = kind).zipIdx

/-- Keeps the sources. -/
def keepAll (w : Workspace) : List (SourceFile × Nat) → Job (Except RequestError (List Kept))
  | [] => return .ok []
  | (source, index) :: rest => do
    match ← w.persist source.kind index source.bytes with
    | .error e => return .error e
    | .ok path =>
      match ← keepAll w rest with
      | .error e => return .error e
      | .ok kept => return .ok ({ kind := source.kind, path } :: kept)

/-- The event that tells the result of an extraction. -/
def extractedEvent (position total : Nat) : Except SourceError Extracted → Event
  | .ok extracted => .sourceExtracted position total extracted.fragment.body.length
  | .error e => .sourceFailed position total e.message

/-- Extracts the sources, of which the first has the given position among all. -/
def extractAll (c : Config) (w : Workspace) (total position : Nat) :
    List Kept → Job (List Extraction)
  | [] => return []
  | kept :: rest => do
    let origin := kept.path.nameForReports
    announce c (.sourceBegun position total origin)
    let result ← kept.kind.extract kept.path w.root
    announce c (extractedEvent position total result)
    let others ← extractAll c w total (position + 1) rest
    return { kind := kept.kind, origin, result } :: others

/-- Why nothing is merged although the sources are there: all of them failed, or some did where
that is not allowed. -/
def refusal? (c : Config) (outcomes : List Outcome) : Option RequestError :=
  let errors := outcomes.filterMap Outcome.error
  match errors with
  | [] => none
  | first :: _ =>
    if errors.length = outcomes.length then
      some (.allSourcesFailed outcomes.length first.message)
    else if c.allowPartial then none
    else some (.partialExtraction errors.length outcomes.length)

/-- The counts of a request. -/
def statsOf (outcomes : List Outcome) (document : Document) : Stats where
  totalSources := outcomes.length
  extractedSources := outcomes.countP Outcome.isOk
  failedSources := outcomes.countP fun o => !o.isOk
  customDirectives := document.custom.length

/-- Writes the merged document and compiles it. -/
def compileMerged (c : Config) (w : Workspace) (outcomes : List Outcome) (document : Document) :
    Job (Except RequestError Report) := do
  match ← w.writeMerged c.mergedName document.render with
  | .error e => return .error e
  | .ok merged =>
    announce c (.merged document.custom.length document.diagnostics.length)
    let compilation ← compile c.compiler c.announces merged w.root
    announce c (.ended compilation.success)
    return .ok {
      compilation
      sources := outcomes
      diagnostics := document.diagnostics
      merged
      stats := statsOf outcomes document }

/-- Merges what was extracted. -/
def mergeExtracted (context : Context) (c : Config) (w : Workspace)
    (extractions : List Extraction) : Job (Except RequestError Report) := do
  let outcomes := extractions.map Extraction.outcome
  match refusal? c outcomes with
  | some refusal => return .error refusal
  | none =>
    match ← (merge (extractions.filterMap Extraction.fragment?)).interpret context.isAvailable with
    | .error malformed => return .error (.malformedFragment malformed)
    | .ok document => compileMerged c w outcomes document

end Request

open Request in
/-- Merges sources into one document and compiles it. -/
def process (context : Context) (c : Config) (sources : List SourceFile) :
    Job (Except RequestError Report) := do
  match ← Workspace.prepare context.directory with
  | .error e => return .error e
  | .ok w =>
    announce c (.begun sources.length)
    match ← keepAll w (inOrder sources) with
    | .error e => return .error e
    | .ok kept =>
      mergeExtracted context c w (← extractAll c w sources.length 1 kept)

/-- Copies an artifact to a file, by way of a temporary file beside it. -/
def deliver (c : CompilerConfig) (artifact output : Path) : Job (Except OsError Unit) := do
  let made ← match output.parent? with
    | some parent => if parent.text.isEmpty then pure (.ok ()) else act (.makeDirs parent)
    | none => pure (.ok ())
  match made with
  | .error e => return .error e
  | .ok () =>
    let temporary := output.withExtension (c.artifactExtension ++ ".tmp")
    match ← act (.copy artifact temporary) with
    | .error e => return .error e
    | .ok () => act (.rename temporary output)

/-- Handles a request and copies its artifact to a file. -/
def processToFile (context : Context) (c : Config) (sources : List SourceFile) (output : Path) :
    Job (Except RequestError Report) := do
  match ← process context c sources with
  | .error e => return .error e
  | .ok report =>
    match report.result with
    | .error e => return .error e
    | .ok artifact =>
      match ← deliver c.compiler artifact output with
      | .error cause => return .error (.outputWriteFailed output cause)
      | .ok () => return .ok report

end Bindery
