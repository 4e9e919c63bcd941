import Bindery.Proofs.Compile.Unaffected
import Bindery.Proofs.Request.Alongside

/-!
# Sources that cannot be extracted

A request with one more source that cannot be extracted differs from the request without it in what
became of that source alone (`Isolates`), if failures are allowed, some other source can be
extracted, and neither the compiler nor the probe takes notice of its file
(`isolates_of_not_isAccepted`).  Everything after extraction depends on the fragments only
(`mergeExtracted_eq`) and is unaffected by one more file (`unaffected_mergeAndCompile`).
-/

namespace Bindery.Request

open Machine (run run_bind Unaffected unaffected_done unaffected_act unaffected_of_only)

/-! ### After extraction -/

/-- Merges fragments and compiles the document.  The result is the document, where it is written,
and what came of compiling it. -/
def mergeAndCompile (context : Context) (c : Config) (w : Workspace) (fragments : List Fragment) :
    Job (Except RequestError (Document × Path × Compilation)) := do
  match ← (merge fragments).interpret context.isAvailable with
  | .error malformed => return .error (.malformedFragment malformed)
  | .ok document =>
    match ← w.writeMerged c.mergedName document.render with
    | .error e => return .error e
    | .ok merged =>
      announce c (.merged document.custom.length document.diagnostics.length)
      let compilation ← compile c.compiler c.announces merged w.root
      announce c (.ended compilation.success)
      return .ok (document, merged, compilation)

/-- The report of a request with certain outcomes. -/
def reportOf (outcomes : List Outcome) : Document × Path × Compilation → Report
  | (document, merged, compilation) => {
      compilation
      sources := outcomes
      diagnostics := document.diagnostics
      merged
      stats := statsOf outcomes document }

/-- What is merged and compiled depends on the fragments alone, and the outcomes are only
reported. -/
theorem mergeExtracted_eq (context : Context) {c : Config} (w : Workspace) {xs : List Extraction}
    (h : refusal? c (xs.map Extraction.outcome) = none) :
  mergeExtracted context c w xs
    = (mergeAndCompile context c w (xs.filterMap Extraction.fragment?)).bind fun result =>
      .done (result.map (reportOf (xs.map Extraction.outcome)))
  := by
  unfold mergeExtracted mergeAndCompile compileMerged
  dsimp only
  rw [h]
  simp only [Dialogue.bind_eq, Dialogue.bind_assoc]
  congr
  funext result
  cases result with
  | error malformed => rfl
  | ok document =>
    dsimp only
    rw [Dialogue.bind_assoc]
    congr
    funext result
    cases result with
    | error e => rfl
    | ok merged =>
      dsimp only
      simp only [Dialogue.bind_assoc]
      rfl

/-- What the compiler is to do in a request, if the merged document has a file name. -/
def task? (context : Context) (c : Config) : Option Compile.Task :=
  (context.directory.join c.mergedName).fileName?.map fun fileName =>
    { config := c.compiler, directory := context.directory, fileName, announces := c.announces }

variable {s : Surroundings} {context : Context} {c : Config} {cwd l : Location} {bytes : Bytes}
  {m : Machine}

theorem unaffected_announce (event : Event) :
  Unaffected s cwd l bytes (announce c event)
  := unaffected_of_only (only_announce c (unaffected_act trivial))

/-- Merging and compiling are unaffected by a file of which the compiler and the probe take no
notice. -/
theorem unaffected_mergeAndCompile
    (hproducts : ∀ path ∈ products context c, path.Avoids cwd l)
    (hprobe : ∀ name, Unaffected s cwd l bytes (context.isAvailable name))
    (hcompiler : ∀ t ∈ task? context c, Compile.Ignores s.programs cwd t l bytes)
    (fragments : List Fragment) :
  Unaffected s cwd l bytes (mergeAndCompile context c ⟨context.directory⟩ fragments)
  := by
  rw [products, List.forall_mem_cons, List.forall_mem_cons] at hproducts
  obtain ⟨hmerged, hlog, hartifact⟩ := hproducts
  have hcompile : Unaffected s cwd l bytes (compile c.compiler c.announces
      (context.directory.join c.mergedName) context.directory) := by
    apply Compile.unaffected_compile hlog
    · intro fileName hname
      apply hartifact
      rw [hname]
      exact List.mem_singleton_self _
    · intro fileName hname
      apply hcompiler
      rw [task?, hname]
      exact rfl
  refine (Machine.unaffected_interpret hprobe _).bind ?_
  rintro (malformed | document)
  · exact unaffected_done _
  · dsimp only
    rw [Workspace.writeMerged, Workspace.write, Dialogue.bind_eq, Dialogue.bind_eq,
      Dialogue.bind_assoc]
    refine Unaffected.bind (unaffected_act hmerged) ?_
    rintro (cause | _)
    · exact unaffected_done _
    · exact (unaffected_announce _).bind fun _ => hcompile.bind fun _ =>
        (unaffected_announce _).bind fun _ => unaffected_done _

/-! ### What a run comes to -/

/-- Where a run of a request leaves the machine once its sources are extracted. -/
def extracted (s : Surroundings) (context : Context) (c : Config) (sources : List SourceFile)
    (m : Machine) : Machine :=
  match run s (keeping context c sources) m with
  | (.error _, m') => m'
  | (.ok (w, kept), m') => (run s (extractAll c w sources.length 1 kept) m').2

theorem extracted_eq {sources : List SourceFile} {w : Workspace} {kept : List Kept} {n : Machine}
    (h : run s (keeping context c sources) m = (.ok (w, kept), n)) :
  extracted s context c sources m = (run s (extractAll c w sources.length 1 kept) n).2
  := by rw [extracted, h]

/-- The merging of what a run of a request extracts. -/
def mergingOf (s : Surroundings) (context : Context) (c : Config) (sources : List SourceFile)
    (m : Machine) : Inquiry (Except MalformedFragment Document) :=
  merge ((extractions s context c sources m).filterMap Extraction.fragment?)

/-- The document that a run of a request merges. -/
def documentOf (s : Surroundings) (context : Context) (c : Config) (sources : List SourceFile)
    (m : Machine) : Except MalformedFragment Document :=
  (run s ((mergingOf s context c sources m).interpret context.isAvailable)
    (extracted s context c sources m)).1

/-- The packages that a run of a request looks up, with the answers of the probe. -/
def lookups (s : Surroundings) (context : Context) (c : Config) (sources : List SourceFile)
    (m : Machine) : List ((_ : String) × Bool) :=
  (mergingOf s context c sources m).transcript (fun m name => run s (context.isAvailable name) m)
    (extracted s context c sources m)

/-- A request whose sources are kept merges and compiles what it extracts, unless that is
refused. -/
theorem run_process_eq {sources : List SourceFile} {w : Workspace} {kept : List Kept} {n : Machine}
    (h : run s (keeping context c sources) m = (.ok (w, kept), n))
    (hrefusal : refusal? c ((extractions s context c sources m).map Extraction.outcome) = none) :
  run s (process context c sources) m
    = let r := run s (mergeAndCompile context c w
        ((extractions s context c sources m).filterMap Extraction.fragment?))
        (extracted s context c sources m)
      (r.1.map (reportOf ((extractions s context c sources m).map Extraction.outcome)), r.2)
  := by
  rw [extractions_eq h] at hrefusal ⊢
  rw [extracted_eq h, process_eq, run_bind, h, finishing, Dialogue.bind_eq, run_bind,
    mergeExtracted_eq context w hrefusal, run_bind]
  rfl

/-- Nothing is refused if failures are allowed and some source is extracted. -/
theorem refusal?_eq_none {outcomes : List Outcome} (hpartial : c.allowPartial = true)
    (h : ∃ o ∈ outcomes, o.isOk = true) :
  refusal? c outcomes = none
  := by
  obtain ⟨o, ho, hok⟩ := h
  have hcases := refusalCases c outcomes
  generalize refusal? c outcomes = refusal at hcases
  cases hcases with
  | all nonempty failed total first =>
    rw [failed o ho] at hok
    cases hok
  | some strict failed extracted count total =>
    rw [strict] at hpartial
    cases hpartial
  | none => rfl

/-! ### One more failure -/

/-- The report of a request with the outcome of one more source, which failed. -/
def withFailure (before : List Outcome) (failed : Outcome) (after : List Outcome) (r : Report) :
    Report :=
  { r with
    sources := before ++ failed :: after
    stats := { r.stats with
      totalSources := r.stats.totalSources + 1
      failedSources := r.stats.failedSources + 1 } }

/-- The events of the first two stages of a request. -/
def earlyEvents (c : Config) (sources : List SourceFile) (xs : List Extraction) : List Event :=
  announced c (.begun sources.length :: eventsOf sources.length 1 xs)

/-- A run of a request with one more source, whose file is at a location, differs from the run
without it in what became of that source alone. -/
structure Isolates (s : Surroundings) (context : Context) (c : Config) (m : Machine)
    (sources sources' : List SourceFile) (l : Location) (bytes : Bytes)
    (before : List Extraction) (failed : Extraction) (after : List Extraction) : Prop where
  without : extractions s context c sources m = before ++ after
  within : extractions s context c sources' m = before ++ failed :: after
  document : documentOf s context c sources' m = documentOf s context c sources m
  lookups : lookups s context c sources' m = lookups s context c sources m
  outcomes : ∀ report, (run s (process context c sources) m).1 = .ok report →
    report.sources = before.map Extraction.outcome ++ after.map Extraction.outcome
  result : (run s (process context c sources') m).1
    = (run s (process context c sources) m).1.map
      (withFailure (before.map Extraction.outcome) failed.outcome (after.map Extraction.outcome))
  machine : (run s (process context c sources) m).2.Beside l bytes
    (run s (process context c sources') m).2
  events : ∃ rest, (run s (process context c sources) m).2.events.reverse
      = m.events.reverse ++ earlyEvents c sources (before ++ after) ++ rest
    ∧ (run s (process context c sources') m).2.events.reverse
      = m.events.reverse ++ earlyEvents c sources' (before ++ failed :: after) ++ rest

theorem reportOf_insert {before after : List Extraction} {failed : Extraction}
    (h : failed.outcome.isOk = false) (produced : Document × Path × Compilation) :
  reportOf ((before ++ failed :: after).map Extraction.outcome) produced
    = withFailure (before.map Extraction.outcome) failed.outcome (after.map Extraction.outcome)
      (reportOf ((before ++ after).map Extraction.outcome) produced)
  := by
  obtain ⟨document, merged, compilation⟩ := produced
  simp only [reportOf, withFailure, statsOf, List.map_append, List.map_cons, List.length_append,
    List.length_cons, List.countP_append, List.countP_cons, h, Nat.add_assoc]
  rfl

theorem fragments_insert {before after : List Extraction} {failed : Extraction} {e : SourceError}
    (h : failed.result = .error e) :
  (before ++ failed :: after).filterMap Extraction.fragment?
    = (before ++ after).filterMap Extraction.fragment?
  := by
  have hnone : failed.fragment? = none := by rw [Extraction.fragment?, h]
  rw [List.filterMap_append, List.filterMap_append, List.filterMap_cons, hnone]

variable {sources sources' : List SourceFile} {xs ys : List Extraction}

/-- What was announced when the sources are extracted. -/
theorem events_extracted {w : Workspace} {n : Machine}
    (h : run s (keeping context c sources) m = (.ok (w, (inOrder sources).map (keptSource w)), n))
    (hevents : n.events = (announced c [.begun sources.length]).reverse ++ m.events) :
  (extracted s context c sources m).events.reverse
    = m.events.reverse ++ earlyEvents c sources (extractions s context c sources m)
  := by
  have hextracted := events_extractAll (s := s) (c := c) (w := w) sources.length 1
    (inOrder sources) n
  rw [extracted_eq h, extractions_eq h, hextracted, hevents, List.reverse_append,
    List.reverse_reverse, List.reverse_append, List.reverse_reverse, earlyEvents,
    List.append_assoc, ← announced_append]
  rfl

/-- Runs that extract the same but for a failure, and leave machines beside each other so far,
differ in nothing else at the end. -/
theorem isolates_of_extracted {w : Workspace} {kept kept' : List Kept} {n n' : Machine}
    {failed : Extraction} {e : SourceError}
    (hkept : run s (keeping context c sources) m = (.ok (w, kept), n))
    (hkept' : run s (keeping context c sources') m = (.ok (w, kept'), n'))
    (hwithout : extractions s context c sources m = xs ++ ys)
    (hwithin : extractions s context c sources' m = xs ++ failed :: ys)
    (hfailed : failed.result = .error e) (hpartial : c.allowPartial = true)
    (hsome : ∃ o ∈ (xs ++ ys).map Extraction.outcome, o.isOk = true)
    (hproducts : ∀ path ∈ products context c, path.Avoids m.cwd l)
    (hprobe : ∀ name, Unaffected s m.cwd l bytes (context.isAvailable name))
    (hcompiler : ∀ t ∈ task? context c, Compile.Ignores s.programs m.cwd t l bytes)
    (hcwd : (extracted s context c sources m).cwd = m.cwd)
    (hbeside : (extracted s context c sources m).Beside l bytes (extracted s context c sources' m))
    (hevents : (extracted s context c sources m).events.reverse
      = m.events.reverse ++ earlyEvents c sources (xs ++ ys))
    (hevents' : (extracted s context c sources' m).events.reverse
      = m.events.reverse ++ earlyEvents c sources' (xs ++ failed :: ys)) :
  Isolates s context c m sources sources' l bytes xs failed ys
  := by
  have hsome' : ∃ o ∈ (xs ++ failed :: ys).map Extraction.outcome, o.isOk = true := by
    obtain ⟨o, ho, hok⟩ := hsome
    refine ⟨o, ?_, hok⟩
    rw [List.map_append, List.mem_append] at ho ⊢
    exact ho.imp_right (List.mem_cons_of_mem _)
  have hmerging : mergingOf s context c sources' m = mergingOf s context c sources m := by
    rw [mergingOf, mergingOf, hwithout, hwithin, fragments_insert hfailed]
  have hbad : failed.outcome.isOk = false := by
    rw [isOk_outcome, hfailed]
    rfl
  have hrun := run_process_eq hkept (by
    rw [hwithout]
    exact refusal?_eq_none hpartial hsome)
  have hrun' := run_process_eq hkept' (by
    rw [hwithin]
    exact refusal?_eq_none hpartial hsome')
  obtain ⟨rfl, -, -⟩ := of_run_keeping hkept
  have hparallel := unaffected_mergeAndCompile hproducts hprobe hcompiler
    ((xs ++ ys).filterMap Extraction.fragment?) _ _ hcwd hbeside
  rw [hwithout] at hrun
  rw [hwithin, fragments_insert hfailed] at hrun'
  dsimp only at hrun hrun'
  rw [hparallel.value] at hrun'
  generalize run s (mergeAndCompile context c ⟨context.directory⟩
    ((xs ++ ys).filterMap Extraction.fragment?)) (extracted s context c sources m) = r
    at hrun hrun' hparallel
  obtain ⟨new, hnew, hnew'⟩ := hparallel.events
  constructor
  · exact hwithout
  · exact hwithin
  · rw [documentOf, documentOf, hmerging]
    exact (Machine.unaffected_interpret hprobe _ _ _ hcwd hbeside).value
  · rw [lookups, lookups, hmerging]
    exact Machine.transcript_of_unaffected hprobe _ hcwd hbeside
  · intro report hreport
    rw [hrun] at hreport
    cases hresult : r.1 with
    | error e =>
      rw [hresult] at hreport
      cases hreport
    | ok produced =>
      rw [hresult] at hreport
      cases hreport
      exact List.map_append
  · rw [hrun, hrun']
    cases r.1 with
    | error e => rfl
    | ok produced => exact congrArg Except.ok (reportOf_insert hbad produced)
  · rw [hrun, hrun']
    exact hparallel.beside
  · use new.reverse
    rw [hrun, hrun']
    dsimp only
    rw [hnew, hnew', List.reverse_append, List.reverse_append, hevents, hevents']
    exact ⟨rfl, rfl⟩

/-- A source that is not accepted, but can be written in the prepared directory, leaves the request
as it is but for its own failure, wherever it is inserted. -/
theorem isolates_of_inserts {pre post : List (SourceFile × Nat)} {extra : SourceFile × Nat}
    {S : Tree} (hpartial : c.allowPartial = true)
    (h : Inserts sources sources' pre extra post)
    (hsome : ∃ source ∈ sources, IsAccepted source) (hrejected : ¬ IsAccepted extra.1)
    (hwrite : (m.tree.makeDirs m.cwd context.directory).2.write m.cwd
      (keptSource ⟨context.directory⟩ extra).path extra.1.bytes = .ok S)
    (hl : keptAt ⟨context.directory⟩ m.cwd extra = l)
    (hproducts : ∀ path ∈ products context c, path.Avoids m.cwd l)
    (hprobe : ∀ name, Unaffected s m.cwd l extra.1.bytes (context.isAvailable name))
    (hcompiler : ∀ t ∈ task? context c, Compile.Ignores s.programs m.cwd t l extra.1.bytes) :
  (∃ e, (run s (keeping context c sources) m).1 = .error e
      ∧ (run s (keeping context c sources') m).1 = .error e)
    ∨ (run s (keeping context c sources) m).1.isOk ∧ ∃ xs ys e,
      e.origin = extra.1.kind.fileName extra.2
      ∧ xs.map Extraction.key = pre.map sourceKey ∧ ys.map Extraction.key = post.map sourceKey
      ∧ Isolates s context c m sources sources' l extra.1.bytes xs
        (extraction extra (.error e)) ys
  := by
  rcases keeping_inserted (s := s) (c := c) h hwrite with
    hfails | ⟨n, n', hkept, hkept', hbeside, hevents, hevents'⟩
  · exact Or.inl hfails
  right
  rw [hl] at hbeside
  obtain ⟨hsources, himages⟩ := h.avoids hwrite
  rw [hl] at hsources himages
  obtain ⟨hcwd, -⟩ := read_of_run_keeping hkept
  obtain ⟨-, hread⟩ := read_of_run_keeping hkept'
  have hextra : extra ∈ inOrder sources' := by
    rw [h.within]
    exact List.mem_append_right _ List.mem_cons_self
  rw [← hcwd] at hsources himages
  obtain ⟨xs, ys, e, horigin, hxs, hys, hvalue, hvalue', hrest⟩ :=
    extractAll_inserted (s := s) (c := c) hsources himages hbeside (hread extra hextra) hrejected
      sources.length sources'.length 1 1
  rw [← h.without] at hvalue hrest
  rw [← h.within] at hvalue' hrest
  have hwithout := (extractions_eq hkept).trans hvalue
  have hwithin := (extractions_eq hkept').trans hvalue'
  have hgood := (exists_outcome_iff (isOk_extractions hkept) true).mpr
    (by simpa only [decide_eq_true_eq] using hsome)
  rw [hwithout] at hgood
  have hannounced := events_extracted hkept hevents
  have hannounced' := events_extracted hkept' hevents'
  rw [hwithout] at hannounced
  rw [hwithin] at hannounced'
  constructor
  · rw [hkept]
    rfl
  · refine ⟨xs, ys, e, horigin, hxs, hys, ?_⟩
    apply isolates_of_extracted hkept hkept' hwithout hwithin rfl hpartial hgood hproducts hprobe
      hcompiler
    · rw [extracted_eq hkept]
      exact (Machine.cwd_run _ n).trans hcwd
    · rw [extracted_eq hkept, extracted_eq hkept']
      exact hrest
    · exact hannounced
    · exact hannounced'

/-- A source with the number that it gets after all others of its kind. -/
def lastOf (before : List SourceFile) (extra : SourceFile) : SourceFile × Nat :=
  (extra, (bytesOf before extra.kind).length)

theorem kind_of_map_key {pre : List (SourceFile × Nat)} {P : SourceKind → Prop}
    (h : xs.map Extraction.key = pre.map sourceKey) (hpre : ∀ source ∈ pre, P source.1.kind) :
  ∀ x ∈ xs, P x.kind
  := by
  intro x hx
  have hmem : x.key ∈ pre.map sourceKey := by
    rw [← h]
    exact List.mem_map_of_mem hx
  obtain ⟨source, hsource, hkey⟩ := List.mem_map.mp hmem
  have hkind : source.1.kind = x.kind := congrArg Prod.fst hkey
  rw [← hkind]
  exact hpre source hsource

/-- The products avoid the file of a source if their names are plain and differ from its name. -/
theorem avoids_products {T S : Tree} {other : String} (hother : Path.IsName other)
    (hwrite : T.write cwd (context.directory.join other) bytes = .ok S)
    (hnames : ∀ name ∈ [c.mergedName, c.compiler.logName,
      Path.stemOf c.mergedName ++ "." ++ c.compiler.artifactExtension],
      Path.IsName name ∧ name ≠ other) :
  ∀ path ∈ products context c,
    path.Avoids cwd ((context.directory.join other).place cwd).location
  := by
  rw [List.forall_mem_cons, List.forall_mem_cons, List.forall_mem_cons] at hnames
  obtain ⟨⟨hmerged, hmerged'⟩, ⟨hlog, hlog'⟩, ⟨hartifact, hartifact'⟩, -⟩ := hnames
  rw [products, Path.fileName?_join _ hmerged, List.forall_mem_cons, List.forall_mem_cons]
  refine ⟨Tree.avoids_of_write hmerged hother hmerged' hwrite,
    Tree.avoids_of_write hlog hother hlog' hwrite, ?_⟩
  intro path hpath
  obtain rfl := List.mem_singleton.mp hpath
  exact Tree.avoids_of_write hartifact hother hartifact' hwrite

/-- Let failures be allowed, and let some source of a request be accepted.  A source that is not
accepted but can be written, added after the last one of its kind, is kept, reported as failed and
counted, and makes no other difference: what is extracted from the others, the document, the
packages that are looked up, the compilation and all other files are the same, if the products of
the request do not lead to its file and neither the probe nor the compiler takes notice of it.  If
another source cannot be kept, both requests fail alike. -/
theorem isolates_of_not_isAccepted (s : Surroundings) (context : Context) (c : Config)
    (before after : List SourceFile) (extra : SourceFile) {m : Machine} {S : Tree}
    (hpartial : c.allowPartial = true)
    (hlast : ∀ source ∈ after, source.kind ≠ extra.kind)
    (hsome : ∃ source ∈ before ++ after, IsAccepted source) (hrejected : ¬ IsAccepted extra)
    (hwrite : (m.tree.makeDirs m.cwd context.directory).2.write m.cwd
      (keptSource ⟨context.directory⟩ (lastOf before extra)).path extra.bytes = .ok S)
    (hproducts : ∀ path ∈ products context c,
      path.Avoids m.cwd (keptAt ⟨context.directory⟩ m.cwd (lastOf before extra)))
    (hprobe : ∀ name, Unaffected s m.cwd (keptAt ⟨context.directory⟩ m.cwd (lastOf before extra))
      extra.bytes (context.isAvailable name))
    (hcompiler : ∀ t ∈ task? context c, Compile.Ignores s.programs m.cwd t
      (keptAt ⟨context.directory⟩ m.cwd (lastOf before extra)) extra.bytes) :
  (∀ e, (run s (keeping context c (before ++ after)) m).1 = .error e →
    (run s (process context c (before ++ after)) m).1 = .error e
      ∧ (run s (process context c (before ++ extra :: after)) m).1 = .error e)
  ∧ ((run s (keeping context c (before ++ after)) m).1.isOk → ∃ xs ys e,
    let origin := extra.kind.fileName (bytesOf before extra.kind).length
    let failed := extraction (lastOf before extra) (.error e)
    e.origin = origin
      ∧ failed.outcome
        = { kind := extra.kind, origin, bodyLines := 0, assets := [], error := some e }
      ∧ (∀ x ∈ xs, x.kind.rank ≤ extra.kind.rank) ∧ (∀ y ∈ ys, extra.kind.rank < y.kind.rank)
      ∧ Isolates s context c m (before ++ after) (before ++ extra :: after)
        (keptAt ⟨context.directory⟩ m.cwd (lastOf before extra)) extra.bytes xs failed ys)
  := by
  obtain ⟨pre, post, hinserts, hpre, hpost⟩ := exists_inserts before hlast
  rcases isolates_of_inserts (s := s) hpartial hinserts hsome hrejected hwrite rfl hproducts
    hprobe hcompiler with ⟨e, he, he'⟩ | ⟨hok, xs, ys, e, horigin, hxs, hys, hisolates⟩
  · constructor
    · intro e' he''
      rw [he] at he''
      cases he''
      rw [process_eq, process_eq, run_bind, run_bind, he, he']
      exact ⟨rfl, rfl⟩
    · intro hok
      rw [he] at hok
      cases hok
  · constructor
    · intro e' he'
      rw [he'] at hok
      cases hok
    · intro _
      refine ⟨xs, ys, e, horigin, rfl, ?_, ?_, hisolates⟩
      · exact kind_of_map_key (P := fun kind => kind.rank ≤ extra.kind.rank) hxs hpre
      · exact kind_of_map_key (P := fun kind => extra.kind.rank < kind.rank) hys hpost

/-- A broken notebook beside markup that a compiler turns into an artifact. -/
theorem isolates_of_not_isAccepted_notebook :
  let s : Surroundings := {
    programs := fun _ cwd tree => match tree.write cwd ⟨"/w/merged.pdf"⟩ [0x25] with
      | .ok tree => (.ok (.exited 0), tree)
      | .error cause => (.error cause, tree) }
  let context := Context.consulting "1" ⟨"/w"⟩
  let c : Config := { announces := true }
  let markup : SourceFile := { kind := .latex, name := "a", bytes := [0x62] }
  let broken : SourceFile := { kind := .notebook, name := "b", bytes := [0x7b] }
  let m : Machine := { tree := {} }
  ∃ report report', (run s (process context c [markup]) m).1 = .ok report
    ∧ (run s (process context c [markup, broken]) m).1 = .ok report'
    ∧ report.compilation.success = true ∧ report'.compilation = report.compilation
    ∧ report'.stats.failedSources = report.stats.failedSources + 1
    ∧ (run s (process context c [markup, broken]) m).2.tree.read [] ⟨"/w/merged.tex"⟩
      = (run s (process context c [markup]) m).2.tree.read [] ⟨"/w/merged.tex"⟩
  := by
  intro s context c markup broken m
  have hwrite : ((m.tree.makeDirs m.cwd context.directory).2.write m.cwd
      (keptSource ⟨context.directory⟩ (lastOf [markup] broken)).path broken.bytes).isOk := by
    decide +kernel
  cases hwritten : (m.tree.makeDirs m.cwd context.directory).2.write m.cwd
      (keptSource ⟨context.directory⟩ (lastOf [markup] broken)).path broken.bytes with
  | error cause =>
    rw [hwritten] at hwrite
    cases hwrite
  | ok S =>
    have hartifact : (⟨"/w/merged.pdf"⟩ : Path).Avoids m.cwd
        (keptAt ⟨context.directory⟩ m.cwd (lastOf [markup] broken)) := by decide +kernel
    have hcompiler : ∀ t ∈ task? context c, Compile.Ignores s.programs m.cwd t
        (keptAt ⟨context.directory⟩ m.cwd (lastOf [markup] broken)) broken.bytes := by
      intro t _ T T' log log' hbeside _ _
      dsimp only [s]
      rcases hbeside.write hartifact [0x25] with ⟨e, he, he'⟩ | ⟨U, U', hU, hU', hafter⟩
      · rw [he, he']
        exact ⟨rfl, hbeside⟩
      · rw [hU, hU']
        exact ⟨rfl, hafter⟩
    obtain ⟨-, hisolates⟩ := isolates_of_not_isAccepted s context c [markup] [] broken (m := m)
      rfl (List.forall_mem_nil _) ⟨markup, List.mem_cons_self, by decide +kernel⟩
      (by decide +kernel) hwritten
      (avoids_products (SourceKind.isName_fileName _ _) hwritten (by decide +kernel))
      Machine.unaffected_consult hcompiler
    obtain ⟨xs, ys, e, -, -, -, -, hdiffers⟩ := hisolates (by decide +kernel)
    have hsuccess : (run s (process context c [markup]) m).1.toOption.map
        (fun report => report.compilation.success) = some true := by decide +kernel
    cases hreport : (run s (process context c [markup]) m).1 with
    | error e =>
      rw [hreport] at hsuccess
      cases hsuccess
    | ok report =>
      rw [hreport] at hsuccess
      injection hsuccess with hsuccess
      have hresult := hdiffers.result
      rw [List.append_nil, hreport] at hresult
      refine ⟨report, _, rfl, hresult, hsuccess, rfl, rfl, ?_⟩
      exact hdiffers.machine.tree.read (by decide +kernel)

end Bindery.Request
