import Bindery.Proofs.Announced
import Bindery.Proofs.Compile.Actions
import Bindery.Proofs.Compile.Verdict
import Bindery.Proofs.Request.Order
import Bindery.Proofs.Request.Refusal

/-!
# The story that a request tells

The events of a request follow one grammar, which depends on how the request ends (`Story`): its
beginning, two events for each source in turn, the merged document, two events for each pass as far
as the compiler came, and the end.  `Findings` are what the stages of a run came to; the events tell
them and nothing else, and agree with the counts of the report (`story_of_process`).
-/

namespace Bindery

namespace Event

/-- The event says that a source gave a fragment. -/
def isExtracted : Event → Bool
  | sourceExtracted .. => true
  | _ => false

/-- The event says that a source gave none. -/
def isFailed : Event → Bool
  | sourceFailed .. => true
  | _ => false

/-- The number and the exit code of the pass that the event says has ended. -/
def passEnded? : Event → Option (Nat × Option Int)
  | passEnded pass _ exitCode => some (pass, exitCode)
  | _ => none

/-- The event says that the request is over. -/
def isEnd : Event → Bool
  | ended _ => true
  | _ => false

end Event

namespace Request

open Job (announced announced_bind announced_of_silent Silent Tells tells_done tells_of_silent)

/-! ### The grammar -/

/-- The event that tells the outcome of a source. -/
def outcomeEvent (position total : Nat) (o : Outcome) : Event :=
  match o.error with
  | none => .sourceExtracted position total o.bodyLines
  | some e => .sourceFailed position total e.message

/-- The events of sources, of which the first has the given position among all. -/
def sourceEvents (total position : Nat) (outcomes : List Outcome) : List Event :=
  (outcomes.zipIdx position).flatMap fun (o, position) =>
    [.sourceBegun position total o.origin, outcomeEvent position total o]

/-- The events of passes that ended. -/
def passEvents (passes : List Pass) : List Event :=
  passes.flatMap fun p =>
    [.passBegun p.number compilerPasses, .passEnded p.number compilerPasses p.exitCode]

/-- The numbers of the passes. -/
def passNumbers : List Nat :=
  List.range' 1 compilerPasses

/-- The passes that a compilation has on record, and the events that tell of them. -/
inductive PassStory : Compilation → List Event → Prop where
  /-- The first pass is not begun. -/
  | unbegun {r : Compilation} (failed : r.success = false) (none : r.passes = []) : PassStory r []
  /-- A pass is begun, but does not end. -/
  | stopped {r : Compilation} {pass : Nat} {rest : List Nat} (failed : r.success = false)
      (numbers : r.passes.map Pass.number ++ pass :: rest = passNumbers) :
    PassStory r (passEvents r.passes ++ [.passBegun pass compilerPasses])
  | through {r : Compilation} (numbers : r.passes.map Pass.number = passNumbers) :
    PassStory r (passEvents r.passes)

/-- What the stages of a run came to. -/
structure Findings where
  /-- The outcomes of the sources. -/
  outcomes : List Outcome
  /-- What merging them gives. -/
  merged : Except MalformedFragment Document

/-- How a request ends whose sources were extracted, and the events that tell of it. -/
inductive Closing (c : Config) (f : Findings) :
    List Event → Except RequestError Report → Prop where
  /-- Too many sources failed. -/
  | refused {e : RequestError} (refusal : refusal? c f.outcomes = some e) :
    Closing c f [] (.error e)
  | malformed {fault : MalformedFragment} (merged : f.merged = .error fault) :
    Closing c f [] (.error (.malformedFragment fault))
  /-- The merged document cannot be written. -/
  | unwritten {document : Document} {path : Path} {cause : OsError}
      (merged : f.merged = .ok document) : Closing c f [] (.error (.writeFailed path cause))
  | reported {document : Document} {report : Report} {passing : List Event}
      (merged : f.merged = .ok document) (sources : report.sources = f.outcomes)
      (diagnostics : report.diagnostics = document.diagnostics)
      (stats : report.stats = statsOf f.outcomes document)
      (passes : PassStory report.compilation passing) :
    Closing c f
      (.merged document.custom.length document.diagnostics.length
        :: passing ++ [.ended report.compilation.success])
      (.ok report)

/-- How a request of the given sources ends, and the events that tell of it.  There are findings
if the sources were kept. -/
inductive Story (c : Config) (sources : List SourceFile) :
    Option Findings → List Event → Except RequestError Report → Prop where
  | uncreated {path : Path} {cause : OsError} :
    Story c sources none [] (.error (.workspaceCreate path cause))
  | unwritable {path : Path} : Story c sources none [] (.error (.workspaceNotWritable path))
  /-- A source cannot be kept. -/
  | unkept {path : Path} {cause : OsError} :
    Story c sources none [.begun sources.length] (.error (.writeFailed path cause))
  | kept {f : Findings} {closing : List Event} {result : Except RequestError Report}
      (keys : f.outcomes.map (fun o => (o.kind, o.origin)) = (inOrder sources).map sourceKey)
      (closes : Closing c f closing result) :
    Story c sources (some f)
      (.begun sources.length :: sourceEvents sources.length 1 f.outcomes ++ closing) result

/-! ### Passes -/

variable {t : Compile.Task}

theorem tells_taskAnnounce (ht : t.announces = true) (event : Event) :
  Tells (fun events _ => events = [event]) (t.announce event)
  := by
  rw [Compile.Task.announce, if_pos ht]
  exact fun _ => rfl

/-- What running passes of the given numbers adds to those that ran before, and the events that tell
of it. -/
inductive Passing (ran : List Pass) (numbers : List Nat) :
    List Event → Except CompileFault Nat × List Pass → Prop where
  | through {ended : List Pass} {lastStart : Nat} (all : ended.map Pass.number = numbers) :
    Passing ran numbers (passEvents ended) (.ok lastStart, ran ++ ended)
  | stopped {ended : List Pass} {pass : Nat} {rest : List Nat} {fault : CompileFault}
      (some : ended.map Pass.number ++ pass :: rest = numbers) :
    Passing ran numbers (passEvents ended ++ [.passBegun pass compilerPasses])
      (.error fault, ran ++ ended)

theorem Passing.cons {ran : List Pass} {p : Pass} {numbers : List Nat} {events : List Event}
    {result : Except CompileFault Nat × List Pass}
    (h : Passing (ran ++ [p]) numbers events result) :
  Passing ran (p.number :: numbers) (.passBegun p.number compilerPasses
    :: .passEnded p.number compilerPasses p.exitCode :: events) result
  := by
  cases h with
  | @through ended lastStart all =>
    rw [List.append_assoc]
    change Passing _ _ (passEvents (p :: ended)) (_, ran ++ p :: ended)
    exact .through (congrArg _ all)
  | @stopped ended pass rest fault some =>
    rw [List.append_assoc]
    change Passing _ _ (passEvents (p :: ended) ++ _) (_, ran ++ p :: ended)
    exact .stopped (congrArg _ some)

/-- Passes tell of those that end, and of the one that does not. -/
theorem tells_runPasses (ht : t.announces = true) (ran : List Pass) (lastStart : Nat)
    (numbers : List Nat) :
  Tells (Passing ran numbers) (Compile.runPasses t ran lastStart numbers)
  := by
  induction numbers generalizing ran lastStart with
  | nil =>
    have hnone : Passing ran [] (passEvents []) (.ok lastStart, ran ++ []) := .through rfl
    rw [List.append_nil] at hnone
    exact hnone
  | cons pass rest ih =>
    have hlength : Silent
        (if rest.isEmpty then Compile.logLength t.log else .done lastStart) := by
      split
      · exact Compile.only_logLength rfl
      · exact Dialogue.only_done _
    have hpass : Silent (Compile.runPass t pass) := by
      apply Compile.only_runPass
      · rfl
      · exact fun _ _ => rfl
      · exact fun _ => rfl
    rw [Compile.runPasses_cons]
    apply Tells.after_silent hlength (Dialogue.always_of_forall (fun _ => trivial) _)
    intro lastStart _
    apply (tells_taskAnnounce ht _).bind
    rintro _ _ rfl
    apply Tells.after_silent hpass (Dialogue.always_of_forall (fun _ => trivial) _)
    rintro (fault | exitCode) _
    · have hstopped : Passing ran (pass :: rest)
          (passEvents [] ++ [.passBegun pass compilerPasses]) (.error fault, ran ++ []) :=
        .stopped rfl
      rw [List.append_nil] at hstopped
      exact hstopped
    · apply (tells_taskAnnounce ht _).bind
      rintro _ _ rfl
      let p : Pass := { number := pass, exitCode }
      exact (ih (ran ++ [p]) lastStart).mono fun _ _ h => h.cons

theorem passes_judge (lastStart : Nat) (passes : List Pass) :
  (Compile.judge t lastStart passes).Always fun r => r.passes = passes
  := by
  have hartifact (softWarning : Bool) :
      (Compile.judgeArtifact t softWarning passes).Always fun r => r.passes = passes := by
    apply Dialogue.always_bind.mpr
    rintro (cause | stat) <;> rfl
  unfold Compile.judge
  dsimp only
  split
  · exact hartifact false
  · apply Dialogue.always_bind.mpr
    apply Dialogue.always_of_forall
    intro output
    split
    · exact hartifact true
    · rfl

/-- After a fault, nothing is announced, and what ended before stays on record. -/
theorem tells_fail (log : Path) (fault : CompileFault) (passes : List Pass) :
  Tells (fun events r => events = [] ∧ r.success = false ∧ r.passes = passes)
    (Compile.fail log fault passes)
  := by
  have hsilent : Silent (Compile.fail log fault passes) := by
    apply Compile.only_fail
    rfl
  apply tells_of_silent hsilent
  apply Dialogue.always_bind.mpr
  rintro (cause | bytes) <;> exact ⟨rfl, rfl⟩

/-- The passes are judged in silence, and stay on record. -/
theorem tells_judge (lastStart : Nat) (passes : List Pass) :
  Tells (fun events r => events = [] ∧ r.passes = passes) (Compile.judge t lastStart passes)
  := by
  have hsilent : Silent (Compile.judge t lastStart passes) := by
    apply Compile.only_judge <;> rfl
  exact tells_of_silent hsilent (passes_judge lastStart passes)

/-- Compiling tells of the passes on record. -/
theorem tells_compile (c : CompilerConfig) (document directory : Path) :
  Tells (fun events r => PassStory r events) (compile c true document directory)
  := by
  unfold compile
  split
  · apply (tells_fail _ _ _).mono
    rintro _ r ⟨rfl, hfailed, hpasses⟩
    exact .unbegun hfailed hpasses
  · next fileName _ =>
    let t : Compile.Task := { config := c, directory, fileName, announces := true }
    have hstale : Silent (Compile.removeStale t.artifact) := by
      apply Compile.only_removeStale
      rfl
    change Tells _ ((Compile.runAll t).bind (Compile.assess t))
    rw [Compile.runAll, Dialogue.bind_eq, Dialogue.bind_assoc]
    apply Tells.after_silent hstale (Dialogue.always_of_forall (fun _ => trivial) _)
    rintro (fault | _) _
    · apply (tells_fail t.log fault []).mono
      rintro _ r ⟨rfl, hfailed, hpasses⟩
      exact .unbegun hfailed hpasses
    · have hpasses : Tells (Passing [] passNumbers) (Compile.runPasses t [] 0 passNumbers) :=
        tells_runPasses rfl [] 0 passNumbers
      apply hpasses.bind
      intro events result hresult
      cases hresult with
      | @through ended lastStart all =>
        apply (tells_judge lastStart ended).mono
        rintro _ r ⟨rfl, rfl⟩
        rw [List.append_nil]
        exact .through all
      | @stopped ended pass rest fault some =>
        apply (tells_fail t.log fault ended).mono
        rintro _ r ⟨rfl, hfailed, rfl⟩
        rw [List.append_nil]
        exact .stopped hfailed some

/-! ### Keeping and extracting -/

variable {c : Config} {w : Workspace}

theorem tells_announce (hc : c.announces = true) (event : Event) :
  Tells (fun events _ => events = [event]) (announce c event)
  := by
  rw [announce, if_pos hc]
  exact fun _ => rfl

theorem event?_of_mild {R P : Path → Prop} {action : Action}
    (h : Machine.Mild R P (fun _ => False) action) :
  action.event? = none
  := by
  cases action with
  | announce event => cases h
  | _ => rfl

/-- What preparing a directory gives. -/
inductive Prepared (root : Path) : Except RequestError Workspace → Prop where
  | uncreated {cause : OsError} : Prepared root (.error (.workspaceCreate root cause))
  | unwritable : Prepared root (.error (.workspaceNotWritable root))
  | writable : Prepared root (.ok ⟨root⟩)

theorem tells_prepare (root : Path) :
  Tells (fun events result => events = [] ∧ Prepared root result) (Workspace.prepare root)
  := by
  have hsilent : Silent (Workspace.prepare root) := only_prepare rfl rfl
  apply tells_of_silent hsilent
  apply Dialogue.always_bind.mpr
  rintro (cause | _)
  · exact .uncreated
  · apply Dialogue.always_bind.mpr
    apply Dialogue.always_of_forall
    rintro (cause | stat)
    · exact .uncreated
    · dsimp only
      split
      · exact .writable
      · exact .unwritable

/-- What keeping sources gives. -/
inductive Keeping (w : Workspace) (sources : List (SourceFile × Nat)) :
    Except RequestError (List Kept) → Prop where
  | unkept {path : Path} {cause : OsError} : Keeping w sources (.error (.writeFailed path cause))
  | kept : Keeping w sources (.ok (sources.map (keptSource w)))

theorem keeping_keepAll (w : Workspace) (sources : List (SourceFile × Nat)) :
  (keepAll w sources).Always (Keeping w sources)
  := by
  induction sources with
  | nil => exact .kept
  | cons source rest ih =>
    apply Dialogue.always_bind.mpr
    apply Dialogue.always_bind.mpr
    rintro (cause | _)
    · exact .unkept
    · apply Dialogue.always_bind.mpr
      apply ih.mono
      intro result hrest
      cases hrest with
      | unkept => exact .unkept
      | kept => exact .kept

theorem tells_keepAll (w : Workspace) (sources : List (SourceFile × Nat)) :
  Tells (fun events result => events = [] ∧ Keeping w sources result) (keepAll w sources)
  := by
  have hsilent : Silent (keepAll w sources) :=
    (mild_keepAll w sources).mono fun _ => event?_of_mild
  exact tells_of_silent hsilent (keeping_keepAll w sources)

/-- What the first stage of a request gives, and the events that tell of it. -/
inductive Begun (c : Config) (root : Path) (sources : List SourceFile) :
    List Event → Except RequestError (Workspace × List Kept) → Prop where
  | failed {events : List Event} {e : RequestError}
      (story : Story c sources none events (.error e)) : Begun c root sources events (.error e)
  | kept : Begun c root sources [.begun sources.length]
      (.ok (⟨root⟩, (inOrder sources).map (keptSource ⟨root⟩)))

theorem tells_keeping (hc : c.announces = true) (context : Context) (sources : List SourceFile) :
  Tells (Begun c context.directory sources) (keeping context c sources)
  := by
  apply (tells_prepare context.directory).bind
  rintro _ result ⟨rfl, hprepared⟩
  cases hprepared with
  | uncreated => exact .failed .uncreated
  | unwritable => exact .failed .unwritable
  | writable =>
    apply (tells_announce hc _).bind
    rintro _ _ rfl
    apply (tells_keepAll _ _).bind
    rintro _ result ⟨rfl, hkept⟩
    cases hkept with
    | unkept => exact .failed .unkept
    | kept => exact .kept

theorem sourceEvents_cons (total position : Nat) (o : Outcome) (outcomes : List Outcome) :
  sourceEvents total position (o :: outcomes) = [.sourceBegun position total o.origin,
    outcomeEvent position total o] ++ sourceEvents total (position + 1) outcomes
  := by
  rw [sourceEvents, List.zipIdx_cons, List.flatMap_cons]
  rfl

theorem outcomeEvent_outcome (position total : Nat) (x : Extraction) :
  outcomeEvent position total x.outcome = extractedEvent position total x.result
  := by
  unfold Extraction.outcome
  split <;> next h => rw [h]; rfl

theorem origin_outcome (x : Extraction) :
  x.outcome.origin = x.origin
  := congrArg Prod.snd (key_outcome x)

/-- Two events tell of each source that is extracted. -/
theorem tells_extractOne (hc : c.announces = true) (total position : Nat)
    (source : SourceFile × Nat) :
  Tells (fun events x => events
      = [.sourceBegun position total x.outcome.origin, outcomeEvent position total x.outcome])
    (extractOne c w total position (keptSource w source))
  := by
  have hsilent : Silent (source.1.kind.extract (keptSource w source).path w.root) :=
    (mild_extract source.1.kind source.2 w.root).mono fun _ => event?_of_mild
  apply (tells_announce hc _).bind
  rintro _ _ rfl
  apply Tells.after_silent hsilent (Dialogue.always_of_forall (fun _ => trivial) _)
  intro result _
  apply (tells_announce hc _).bind
  rintro _ _ rfl
  rw [Dialogue.pure_eq, tells_done, outcomeEvent_outcome, origin_outcome, List.append_nil,
    List.singleton_append]

theorem tells_extractAll (hc : c.announces = true) (total position : Nat)
    (sources : List (SourceFile × Nat)) :
  Tells (fun events xs => events = sourceEvents total position (xs.map Extraction.outcome))
    (extractAll c w total position (sources.map (keptSource w)))
  := by
  induction sources generalizing position with
  | nil => rfl
  | cons source rest ih =>
    rw [List.map_cons, extractAll_cons]
    apply (tells_extractOne hc total position source).bind
    rintro _ x rfl
    apply (ih (position + 1)).bind
    rintro _ others rfl
    rw [tells_done, List.map_cons, sourceEvents_cons, List.append_nil]

/-! ### Whole requests -/

/-- What compiling a document of the findings comes to. -/
theorem tells_compileMerged (hc : c.announces = true) {f : Findings} {document : Document}
    (hmerged : f.merged = .ok document) (w : Workspace) :
  Tells (Closing c f) (compileMerged c w f.outcomes document)
  := by
  refine fun written => ?_
  cases written with
  | error cause => exact .unwritten hmerged
  | ok _ =>
    apply (tells_announce hc _).bind
    rintro _ _ rfl
    rw [hc]
    apply (tells_compile _ _ _).bind
    intro passing compilation hpasses
    apply (tells_announce hc _).bind
    rintro _ _ rfl
    rw [Dialogue.pure_eq, tells_done, List.append_nil]
    let report : Report := {
      compilation
      sources := f.outcomes
      diagnostics := document.diagnostics
      merged := w.root.join c.mergedName
      stats := statsOf f.outcomes document }
    exact @Closing.reported c f document report passing hmerged rfl rfl rfl hpasses

variable {σ : Type} (answer : σ → (action : Action) → action.Answer × σ)

/-- What merging extractions comes to. -/
def mergedFrom (context : Context) (xs : List Extraction) :
    Job (Except MalformedFragment Document) :=
  (merge (xs.filterMap Extraction.fragment?)).interpret context.isAvailable

/-- What the stages of a request come to, if its sources are kept. -/
def findings? (context : Context) (c : Config) (sources : List SourceFile) (x : σ) :
    Option Findings :=
  match (keeping context c sources).run answer x with
  | (.error _, _) => none
  | (.ok (w, kept), x) =>
    let (xs, x) := (extractAll c w sources.length 1 kept).run answer x
    some {
      outcomes := xs.map Extraction.outcome
      merged := ((mergedFrom context xs).run answer x).1 }

variable {context : Context}

/-- Merging and compiling what was extracted closes the request. -/
theorem closing_of_mergeExtracted (hc : c.announces = true)
    (hlook : ∀ name, Silent (context.isAvailable name)) (w : Workspace) (xs : List Extraction)
    (x : σ) :
  Closing c ⟨xs.map Extraction.outcome, ((mergedFrom context xs).run answer x).1⟩
    (announced answer (mergeExtracted context c w xs) x)
    ((mergeExtracted context c w xs).run answer x).1
  := by
  have hsilent : Silent ((merge (xs.filterMap Extraction.fragment?)).interpret
      context.isAvailable) := only_merge hlook _
  rw [mergeExtracted, mergedFrom]
  cases hrefusal : refusal? c (xs.map Extraction.outcome) with
  | some e => exact .refused hrefusal
  | none =>
    dsimp only
    rw [Dialogue.bind_eq, announced_bind, Dialogue.run_bind, announced_of_silent hsilent,
      List.nil_append]
    generalize ((merge _).interpret context.isAvailable).run answer x = merged
    obtain ⟨malformed | document, x'⟩ := merged
    · exact .malformed rfl
    · exact (tells_compileMerged (f := ⟨xs.map Extraction.outcome, .ok document⟩) hc rfl w).run
        answer x'

/-- A request tells its story. -/
theorem story_of_run (hc : c.announces = true)
    (hlook : ∀ name, Silent (context.isAvailable name)) (sources : List SourceFile) (x : σ) :
  Story c sources (findings? answer context c sources x)
    (announced answer (process context c sources) x)
    ((process context c sources).run answer x).1
  := by
  have hbegun := (tells_keeping hc context sources).run answer x
  rw [process_eq, announced_bind, Dialogue.run_bind, findings?]
  generalize announced answer (keeping context c sources) x = events at hbegun ⊢
  generalize (keeping context c sources).run answer x = ended at hbegun ⊢
  obtain ⟨result, x'⟩ := ended
  dsimp only at hbegun ⊢
  cases hbegun with
  | failed story =>
    rw [finishing, Dialogue.pure_eq, Job.announced_done, List.append_nil]
    exact story
  | kept =>
    have hevents := (tells_extractAll (w := ⟨context.directory⟩) hc sources.length 1
      (inOrder sources)).run answer x'
    have hkeys := (map_key_extractAll c ⟨context.directory⟩ sources.length 1
      ((inOrder sources).map (keptSource ⟨context.directory⟩))).run_fst answer x'
    dsimp only [finishing]
    rw [Dialogue.bind_eq, announced_bind, Dialogue.run_bind, hevents, ← List.append_assoc]
    apply Story.kept
    · rw [map_key_keptSource] at hkeys
      rw [List.map_map, ← hkeys]
      apply List.map_congr_left
      intro x _
      exact key_outcome x
    · exact closing_of_mergeExtracted answer hc hlook _ _ _

/-! ### Counting events -/

variable {sources : List SourceFile} {f : Findings} {events : List Event}

/-- The events agree with the report. -/
structure Tallies (sources : List SourceFile) (r : Report) (events : List Event) : Prop where
  last : events.getLast? = some (.ended r.compilation.success)
  once : events.countP Event.isEnd = 1
  passes : events.filterMap Event.passEnded?
    = r.compilation.passes.map fun p => (p.number, p.exitCode)
  extracted : events.countP Event.isExtracted = r.stats.extractedSources
  failed : events.countP Event.isFailed = r.stats.failedSources
  total : r.stats.extractedSources + r.stats.failedSources = r.stats.totalSources
  outcomes : r.stats.totalSources = r.sources.length
  all : r.sources.length = sources.length

/-- To count the events of a kind that tell outcomes is to count outcomes of a kind. -/
theorem countP_sourceEvents {P : Event → Bool} {Q : Outcome → Bool} (total : Nat)
    (hbegun : ∀ position origin, P (.sourceBegun position total origin) = false)
    (houtcome : ∀ position o, P (outcomeEvent position total o) = Q o) (position : Nat)
    (outcomes : List Outcome) :
  (sourceEvents total position outcomes).countP P = outcomes.countP Q
  := by
  induction outcomes generalizing position with
  | nil => rfl
  | cons o rest ih =>
    rw [sourceEvents_cons, List.countP_append, ih, List.countP_cons, List.countP_cons,
      List.countP_cons, hbegun, houtcome, List.countP_nil]
    simp only [Bool.false_eq_true, ↓reduceIte]
    omega

theorem isExtracted_outcomeEvent (position total : Nat) (o : Outcome) :
  (outcomeEvent position total o).isExtracted = o.isOk
  := by
  rw [outcomeEvent, Outcome.isOk]
  cases o.error <;> rfl

theorem isFailed_outcomeEvent (position total : Nat) (o : Outcome) :
  (outcomeEvent position total o).isFailed = !o.isOk
  := by
  rw [outcomeEvent, Outcome.isOk]
  cases o.error <;> rfl

theorem isEnd_outcomeEvent (position total : Nat) (o : Outcome) :
  (outcomeEvent position total o).isEnd = false
  := by
  rw [outcomeEvent]
  cases o.error <;> rfl

theorem passEnded?_sourceEvents (total position : Nat) (outcomes : List Outcome) :
  (sourceEvents total position outcomes).filterMap Event.passEnded? = []
  := by
  induction outcomes generalizing position with
  | nil => rfl
  | cons o rest ih =>
    have hnone : (outcomeEvent position total o).passEnded? = none := by
      rw [outcomeEvent]
      cases o.error <;> rfl
    rw [sourceEvents_cons, List.filterMap_append, ih, List.filterMap_cons_none rfl,
      List.filterMap_cons_none hnone]
    rfl

theorem passEvents_cons (p : Pass) (passes : List Pass) :
  passEvents (p :: passes) = [.passBegun p.number compilerPasses,
    .passEnded p.number compilerPasses p.exitCode] ++ passEvents passes
  := List.flatMap_cons

theorem passEnded?_passEvents (passes : List Pass) :
  (passEvents passes).filterMap Event.passEnded? = passes.map fun p => (p.number, p.exitCode)
  := by
  induction passes with
  | nil => rfl
  | cons p rest ih =>
    rw [passEvents_cons, List.filterMap_append, ih]
    rfl

theorem PassStory.passEnded? {r : Compilation} (h : PassStory r events) :
  events.filterMap Event.passEnded? = r.passes.map fun p => (p.number, p.exitCode)
  := by
  cases h with
  | unbegun failed none =>
    rw [none]
    rfl
  | stopped failed numbers =>
    rw [List.filterMap_append, passEnded?_passEvents]
    exact List.append_nil _
  | through numbers => exact passEnded?_passEvents _

/-- Passes are told of by events about passes. -/
theorem PassStory.countP_eq_zero {r : Compilation} (h : PassStory r events) {P : Event → Bool}
    (hbegun : ∀ pass total, P (.passBegun pass total) = false)
    (hended : ∀ pass total exitCode, P (.passEnded pass total exitCode) = false) :
  events.countP P = 0
  := by
  have hpasses (passes : List Pass) : (passEvents passes).countP P = 0 := by
    induction passes with
    | nil => rfl
    | cons p rest ih =>
      rw [passEvents_cons, List.countP_append, ih, List.countP_cons, List.countP_cons, hbegun,
        hended]
      rfl
  cases h with
  | unbegun failed none => rfl
  | stopped failed numbers =>
    rw [List.countP_append, hpasses, List.countP_cons, hbegun]
    rfl
  | through numbers => exact hpasses _

/-- A request that fails does not announce its end. -/
theorem Story.countP_isEnd {found : Option Findings} {e : RequestError}
    (h : Story c sources found events (.error e)) :
  events.countP Event.isEnd = 0
  := by
  cases h with
  | uncreated | unwritable | unkept => rfl
  | @kept f _ _ keys closes =>
    have hsources := countP_sourceEvents (P := Event.isEnd) sources.length (fun _ _ => rfl)
      (isEnd_outcomeEvent · _ ·) 1 f.outcomes
    rw [List.countP_false] at hsources
    cases closes with
    | refused | malformed | unwritten =>
      rw [List.append_nil, List.countP_cons, hsources]
      rfl

/-- The events of a kind in a story to the end are those that tell outcomes, and the last one. -/
theorem countP_reported {P : Event → Bool} {Q : Outcome → Bool} {r : Compilation}
    {passing : List Event} (passes : PassStory r passing)
    (hbegun : ∀ total, P (.begun total) = false)
    (hsource : ∀ position total origin, P (.sourceBegun position total origin) = false)
    (houtcome : ∀ position total o, P (outcomeEvent position total o) = Q o)
    (hmerged : ∀ directives diagnostics, P (.merged directives diagnostics) = false)
    (hpass : ∀ pass total, P (.passBegun pass total) = false)
    (hended : ∀ pass total exitCode, P (.passEnded pass total exitCode) = false)
    (total directives diagnostics : Nat) (outcomes : List Outcome) (success : Bool) :
  (Event.begun total :: sourceEvents total 1 outcomes
      ++ (Event.merged directives diagnostics :: passing ++ [Event.ended success])).countP P
    = outcomes.countP Q + [Event.ended success].countP P
  := by
  rw [List.countP_append, List.countP_cons, hbegun, List.countP_append, List.countP_cons, hmerged,
    passes.countP_eq_zero hpass hended,
    countP_sourceEvents total (fun position => hsource position total)
      (fun position => houtcome position total)]
  simp only [Bool.false_eq_true, ↓reduceIte, Nat.add_zero, Nat.zero_add]

/-- The events of a request that gives a report agree with it. -/
theorem Story.tallies {found : Option Findings} {report : Report}
    (h : Story c sources found events (.ok report)) :
  Tallies sources report events
  := by
  cases h with
  | @kept f _ _ keys closes =>
    cases closes with
    | reported merged sameSources diagnostics stats passes =>
      have hlength : f.outcomes.length = sources.length := by
        rw [← length_inOrder sources, ← List.length_map sourceKey, ← keys, List.length_map]
      constructor
      case last => rw [← List.append_assoc, List.getLast?_concat]
      case once =>
        rw [countP_reported passes (fun _ => rfl) (fun _ _ _ => rfl) isEnd_outcomeEvent
          (fun _ _ => rfl) (fun _ _ => rfl) (fun _ _ _ => rfl), List.countP_false]
        rfl
      case passes =>
        rw [List.filterMap_append, List.filterMap_append, List.filterMap_cons_none rfl,
          passEnded?_sourceEvents, List.filterMap_cons_none rfl, passes.passEnded?]
        exact List.append_nil _
      case extracted =>
        rw [countP_reported passes (fun _ => rfl) (fun _ _ _ => rfl) isExtracted_outcomeEvent
          (fun _ _ => rfl) (fun _ _ => rfl) (fun _ _ _ => rfl), stats]
        rfl
      case failed =>
        rw [countP_reported passes (fun _ => rfl) (fun _ _ _ => rfl) isFailed_outcomeEvent
          (fun _ _ => rfl) (fun _ _ => rfl) (fun _ _ _ => rfl), stats]
        rfl
      case total =>
        rw [stats]
        have hcount := List.length_eq_countP_add_countP (l := f.outcomes) Outcome.isOk
        simpa [statsOf] using hcount.symm
      case outcomes =>
        rw [stats, sameSources]
        rfl
      case all => rw [sameSources, hlength]

/-- The events of a request tell its story: how far it came, what each source and each pass came to,
and how it ended.  The end is announced, as the last event, exactly if there is a report, and the
report counts what was announced. -/
theorem story_of_process (answer : σ → (action : Action) → action.Answer × σ) (context : Context)
    (c : Config) (hc : c.announces = true) (hlook : ∀ name, Silent (context.isAvailable name))
    (sources : List SourceFile) (x : σ) :
  let events := announced answer (process context c sources) x
  let result := ((process context c sources).run answer x).1
  Story c sources (findings? answer context c sources x) events result
    ∧ (∀ e, result = .error e → events.countP Event.isEnd = 0)
    ∧ ∀ report, result = .ok report → Tallies sources report events
  := by
  have hstory := story_of_run answer hc hlook sources x
  refine ⟨hstory, ?_, ?_⟩
  · intro e he
    rw [he] at hstory
    exact hstory.countP_isEnd
  · intro report hreport
    rw [hreport] at hstory
    exact hstory.tallies

/-- One of two sources fails, and the compiler does in both passes. -/
theorem story_of_process_partial :
  let s : Surroundings := { programs := fun _ _ tree => (.ok (.exited 1), tree) }
  let context := Context.consulting "1" ⟨"/w"⟩
  let c : Config := { announces := true, allowPartial := true }
  let sources : List SourceFile := [
    { kind := .latex, name := "a", bytes := Text.utf8 "a".toList },
    { kind := .notebook, name := "b", bytes := [0x7b] }]
  let ended := Machine.run s (process context c sources) { tree := {} }
  (∀ name, Silent (context.isAvailable name)) ∧ ∃ report, ended.1 = .ok report
    ∧ report.stats.failedSources = 1 ∧ Tallies sources report ended.2.events.reverse
  := by
  intro s context c sources ended
  have hlook (name : String) : Silent (context.isAvailable name) := Dialogue.only_question rfl
  obtain ⟨-, -, htallies⟩ := story_of_process (Machine.answer s) context c rfl hlook sources
    { tree := {} }
  have hevents : ended.2.events.reverse
      = announced (Machine.answer s) (process context c sources) { tree := {} } := by
    rw [Machine.events_run, List.append_nil, List.reverse_reverse]
  have hfailed : ended.1.toOption.map (·.stats.failedSources) = some 1 := by decide +kernel
  refine ⟨hlook, ?_⟩
  rw [hevents]
  cases hresult : ended.1 with
  | error e =>
    rw [hresult] at hfailed
    cases hfailed
  | ok report =>
    rw [hresult] at hfailed
    exact ⟨report, rfl, Option.some.inj hfailed, htallies report hresult⟩

end Request

end Bindery
