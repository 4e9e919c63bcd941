import Bindery.Proofs.Compile.Creation
import Bindery.Proofs.Request.Plan

/-!
# Files of a request that are kept apart

If all names that a request uses are different, the files of its stages are kept apart
(`KeepsApart`): no file that it writes or removes is touched a second time, the log alone grows,
and a compilation is reported as successful only if the compiler makes the artifact.  A
configuration can be built that gives two files the same name, so this is not so for all of them
(`log_taken_for_artifact`); `apart_of_nodup` says when it is.
-/

namespace Bindery

open Machine (answer run run_bind)
open Job (touches)
open scoped List

/-! ### Touching a file again -/

/-- If two touches are of the same file, both only open it. -/
def Touch.Apart (cwd : Location) (a b : Touch) : Prop :=
  (a.path.place cwd).location = (b.path.place cwd).location → a.how = .opened ∧ b.how = .opened

theorem Touch.mem_each {how : Treatment} {root : Path} {names : List String} {touch : Touch} :
  touch ∈ Touch.each how root names
    ↔ ∃ name ∈ names, touch = { how, path := root.join name }
  := by simp [Touch.each, eq_comm]

/-- Different names in a directory name different places. -/
theorem Path.location_join_ne (cwd : Location) (root : Path) {name other : String}
    (hname : IsName name) (hother : IsName other) (hne : name ≠ other) :
  ((root.join name).place cwd).location ≠ ((root.join other).place cwd).location
  := by
  rw [location_join _ _ hname, location_join _ _ hother]
  intro h
  have hsame := List.append_cancel_left h
  injection hsame with hsame
  exact hne hsame

theorem Path.pairwise_location_join (cwd : Location) (root : Path) {names : List String}
    (hnames : ∀ name ∈ names, IsName name) (h : names.Nodup) :
  (names.map root.join).Pairwise fun p q => (p.place cwd).location ≠ (q.place cwd).location
  := by
  rw [List.pairwise_map]
  apply h.imp_of_mem
  intro a b ha hb hne
  exact location_join_ne cwd root (hnames a ha) (hnames b hb) hne

namespace Request

variable {s : Surroundings} {context : Context} {c : Config} {sources : List SourceFile}
  {m : Machine}

theorem isName_names (hc : c.Fits) (sources : List SourceFile) :
  ∀ name ∈ names c sources, Path.IsName name
  := by
  rw [names, List.forall_mem_append, List.forall_mem_cons, List.forall_mem_cons,
    List.forall_mem_singleton]
  exact ⟨isName_kept_images sources, hc.isName_mergedName, hc.isName_artifactName, hc.log⟩

/-- Everything that is planned is planned for a name that the request uses. -/
theorem exists_name_of_mem_plan {root : Path} {touch : Touch} (h : touch ∈ plan c sources root) :
  ∃ name ∈ names c sources, touch.path = root.join name
  := by
  simp only [plan, latePlan, List.mem_append, Touch.mem_each, List.mem_singleton,
    List.mem_replicate] at h
  simp only [names, List.mem_append, List.mem_cons]
  rcases h with ⟨name, hname, rfl⟩ | (⟨name, rfl, rfl⟩ | ⟨name, rfl, rfl⟩) | ⟨name, ⟨-, rfl⟩, rfl⟩
  · exact ⟨name, by simp [hname]⟩
  · exact ⟨c.mergedName, by simp⟩
  · exact ⟨c.artifactName, by simp⟩
  · exact ⟨c.compiler.logName, by simp⟩

/-- The names of the files that a request writes or removes. -/
def ownNames (c : Config) (sources : List SourceFile) : List String :=
  keptNames sources ++ imageNames sources ++ [c.mergedName, c.artifactName]

theorem names_eq (c : Config) (sources : List SourceFile) :
  names c sources = ownNames c sources ++ [c.compiler.logName]
  := by simp [names, ownNames]

/-- What is planned before the log is opened. -/
def firstPlan (c : Config) (sources : List SourceFile) (root : Path) : List Touch :=
  Touch.each .written root (keptNames sources ++ imageNames sources ++ [c.mergedName])
    ++ Touch.each .removed root [c.artifactName]

theorem plan_eq (c : Config) (sources : List SourceFile) (root : Path) :
  plan c sources root = firstPlan c sources root
    ++ Touch.each .opened root (List.replicate (2 * compilerPasses) c.compiler.logName)
  := by
  rw [plan, latePlan, firstPlan, Touch.each_append .written root (_ ++ _) [c.mergedName],
    List.append_assoc, List.append_assoc, List.append_assoc]

theorem map_path_firstPlan (c : Config) (sources : List SourceFile) (root : Path) :
  (firstPlan c sources root).map Touch.path = (ownNames c sources).map root.join
  := by simp [firstPlan, ownNames, Touch.each, Function.comp_def]

/-- What is planned is kept apart if all names are different. -/
theorem pairwise_plan (hc : c.Fits) (h : (names c sources).Nodup) (cwd : Location)
    (root : Path) :
  (plan c sources root).Pairwise (Touch.Apart cwd)
  := by
  have hnames := isName_names hc sources
  rw [names_eq, List.nodup_append] at h
  rw [names_eq, List.forall_mem_append] at hnames
  obtain ⟨hown, -, hlog⟩ := h
  obtain ⟨hownNames, hlogName⟩ := hnames
  rw [plan_eq, List.pairwise_append]
  refine ⟨?_, ?_, ?_⟩
  · -- Different names lead to different places, so no two of these are the same file.
    have hplaces := Path.pairwise_location_join cwd root hownNames hown
    rw [← map_path_firstPlan, List.pairwise_map] at hplaces
    apply hplaces.imp
    intro a b hne hsame
    exact absurd hsame hne
  · apply List.pairwise_of_forall_mem_list
    intro a ha b hb _
    obtain ⟨-, -, rfl⟩ := Touch.mem_each.mp ha
    obtain ⟨-, -, rfl⟩ := Touch.mem_each.mp hb
    exact ⟨rfl, rfl⟩
  · intro a ha b hb hsame
    have hpath : a.path ∈ (ownNames c sources).map root.join := by
      rw [← map_path_firstPlan]
      exact List.mem_map_of_mem ha
    obtain ⟨name, hname, hjoin⟩ := List.mem_map.mp hpath
    obtain ⟨log, hopened, rfl⟩ := Touch.mem_each.mp hb
    obtain rfl := List.eq_of_mem_replicate hopened
    rw [← hjoin] at hsame
    have hne := hlog name hname _ (List.mem_singleton_self _)
    exact absurd hsame (Path.location_join_ne cwd root (hownNames name hname)
      (hlogName _ (List.mem_singleton_self _)) hne)

/-! ### Adding to the log -/

theorem mem_touches_of_mem_transcript {α σ : Type} {answer : σ → (a : Action) → a.Answer × σ}
    {job : Job α} {x : σ} {path : Path} {r : Except OsError Handle}
    (h : ⟨.openEnd path, r⟩ ∈ job.transcript answer x) :
  ⟨.opened, path⟩ ∈ touches answer job x
  := List.mem_flatMap.mpr ⟨_, h, List.mem_singleton_self _⟩

/-- Whatever a request adds to a file goes to the log, which it has opened. -/
theorem exists_opening_of_append (hc : c.Fits)
    (hlook : ∀ name, (context.isAvailable name).Only Action.IsQuiet)
    {handle : Handle} {bytes : Bytes} {r : Except OsError Unit}
    (h : ⟨.append handle bytes, r⟩ ∈ (process context c sources).transcript (answer s) m) :
  ⟨.openEnd (context.directory.join c.compiler.logName), .ok handle⟩
    ∈ (process context c sources).transcript (answer s) m
  := by
  obtain ⟨path, hpath⟩ := (tidy_process hlook c sources).exists_opening (answer s) m h
  have hplanned := (touches_process hc hlook).subset (mem_touches_of_mem_transcript hpath)
  rw [plan_eq, List.mem_append] at hplanned
  rcases hplanned with hfirst | hopened
  · simp [firstPlan, Touch.mem_each] at hfirst
  · obtain ⟨log, hlog, hsame⟩ := Touch.mem_each.mp hopened
    obtain rfl := List.eq_of_mem_replicate hlog
    injection hsame with _ hsame
    rw [← hsame]
    exact hpath

/-! ### Success -/

/-- The compiling of the merged document, as a request does it. -/
def compiling (context : Context) (c : Config) : Compile.Task where
  config := c.compiler
  directory := context.directory
  fileName := c.mergedName
  announces := c.announces

theorem exists_compile_of_compileMerged {w : Workspace} {outcomes : List Outcome}
    {document : Document} {report : Report}
    (h : (run s (compileMerged c w outcomes document) m).1 = .ok report) :
  ∃ m' : Machine, m'.cwd = m.cwd ∧ report.compilation
    = (run s (compile c.compiler c.announces (w.root.join c.mergedName) w.root) m').1
  := by
  rw [compileMerged, Workspace.writeMerged, Dialogue.bind_eq, run_bind, run_workspace_write] at h
  cases hwrite : m.tree.write m.cwd (w.root.join c.mergedName)
      (Text.utf8 document.render.toList) with
  | error cause =>
    rw [hwrite] at h
    cases h
  | ok tree =>
    rw [hwrite] at h
    simp only [Dialogue.bind_eq, run_bind] at h
    injection h with h
    rw [← h]
    use (run s (announce c (.merged document.custom.length document.diagnostics.length))
      { m with tree }).2
    rw [Machine.cwd_run]
    exact ⟨rfl, rfl⟩

/-- The report of a request tells what came of compiling the merged document. -/
theorem exists_compile_of_process {report : Report}
    (h : (run s (process context c sources) m).1 = .ok report) :
  ∃ m' : Machine, m'.cwd = m.cwd ∧ report.compilation
    = (run s (compile c.compiler c.announces (context.directory.join c.mergedName)
      context.directory) m').1
  := by
  rw [process_eq, run_bind] at h
  cases hkept : run s (keeping context c sources) m with
  | mk result m₁ =>
    have hcwd₁ : m₁.cwd = m.cwd := by
      rw [← Machine.cwd_run (keeping context c sources) m, hkept]
    rw [hkept] at h
    cases result with
    | error e => cases h
    | ok found =>
      obtain ⟨w, kept⟩ := found
      obtain ⟨rfl, -⟩ := of_run_keeping hkept
      rw [finishing, Dialogue.bind_eq, run_bind, mergeExtracted] at h
      dsimp only at h
      split at h
      · cases h
      · rw [Dialogue.bind_eq, run_bind] at h
        split at h
        · cases h
        · obtain ⟨m', hcwd, hcompilation⟩ := exists_compile_of_compileMerged h
          refine ⟨m', ?_, hcompilation⟩
          rw [hcwd, Machine.cwd_run, Machine.cwd_run, hcwd₁]

/-- A request is successful only if the compiler makes the artifact, provided that the log has
another name. -/
theorem creates_of_success (hc : c.Fits) (hlog : c.compiler.logName ≠ c.artifactName)
    {report : Report} (h : (run s (process context c sources) m).1 = .ok report)
    (hsuccess : report.compilation.success) :
  Compile.Creates s.programs m.cwd (compiling context c)
  := by
  obtain ⟨m', hcwd, hcompilation⟩ := exists_compile_of_process h
  have hname := Path.fileName?_join context.directory hc.isName_mergedName
  have hverdict := Compile.verdict_of_compile s (fun _ => s.programs) m' c.compiler c.announces
    hname context.directory
  rw [(Machine.runInTurn_const _ m' 0).1, ← hcompilation, hcwd] at hverdict
  obtain ⟨e, hsucceeds⟩ := hverdict.success_iff.mp hsuccess
  have hapart : ((compiling context c).artifact.place m.cwd).location
      ≠ ((compiling context c).log.place m.cwd).location :=
    Path.location_join_ne m.cwd context.directory hc.isName_artifactName hc.log hlog.symm
  obtain ⟨-, -, hcreates⟩ := hsucceeds.exists_creates hapart
  exact hcreates

/-! ### All stages -/

/-- The files of the stages of a request are kept apart in a run. -/
structure KeepsApart (s : Surroundings) (context : Context) (c : Config)
    (sources : List SourceFile) (m : Machine) : Prop where
  /-- A file that is written or removed is not touched a second time. -/
  touches : (Job.touches (answer s) (process context c sources) m).Pairwise (Touch.Apart m.cwd)
  /-- Whatever is added to a file goes to the log. -/
  appends : ∀ handle bytes r,
    ⟨.append handle bytes, r⟩ ∈ (process context c sources).transcript (answer s) m →
    ⟨.openEnd (context.directory.join c.compiler.logName), .ok handle⟩
      ∈ (process context c sources).transcript (answer s) m
  /-- Success is reported only if the compiler makes the artifact. -/
  creates : ∀ report, (run s (process context c sources) m).1 = .ok report →
    report.compilation.success → Compile.Creates s.programs m.cwd (compiling context c)

/-- The files that a request touches have the names that it uses; these are all different exactly
if the merged document has not the name of a source and the log has not the name of anything else;
and then the files of its stages are kept apart. -/
theorem apart_of_nodup (s : Surroundings) {choices : List Config.Choice}
    (hc : Config.build choices = .ok c)
    (hlook : ∀ name, (context.isAvailable name).Only Action.IsQuiet) (sources : List SourceFile)
    (m : Machine) :
  (∀ touch ∈ touches (answer s) (process context c sources) m,
      ∃ name ∈ names c sources, touch.path = context.directory.join name)
    ∧ ((names c sources).Nodup ↔ c.mergedName ∉ keptNames sources
      ∧ c.compiler.logName ∉ keptNames sources ++ imageNames sources
        ++ [c.mergedName, c.artifactName])
    ∧ ((names c sources).Nodup → KeepsApart s context c sources m)
  := by
  have hfits := Config.fits_of_build hc
  have hplan : touches (answer s) (process context c sources) m
      <+ plan c sources context.directory := touches_process hfits hlook
  refine ⟨?_, names_nodup_iff hfits sources, ?_⟩
  · intro touch htouch
    exact exists_name_of_mem_plan (hplan.subset htouch)
  · intro hnodup
    constructor
    · exact (pairwise_plan hfits hnodup m.cwd context.directory).sublist hplan
    · intro handle bytes r happend
      exact exists_opening_of_append hfits hlook happend
    · intro report hreport hsuccess
      have hlog := (names_nodup_iff hfits sources).mp hnodup
      apply creates_of_success hfits _ hreport hsuccess
      rintro hsame
      apply hlog.2
      simp [hsame]

/-- The packages that a caller is asked for are looked up quietly. -/
theorem quiet_consulting (id : String) (directory : Path) (name : String) :
  ((Context.consulting id directory).isAvailable name).Only Action.IsQuiet
  := Dialogue.only_question trivial

/-- A thesis is kept apart from its sources and its log. -/
theorem apart_of_nodup_thesis :
  let s : Surroundings := { programs := fun _ _ T => (.ok (.exited 0), T) }
  let c : Config := { mergedStem := "thesis", compiler.logName := "thesis.log" }
  let sources : List SourceFile := [
    { kind := .slides, name := "talk.pptx", bytes := [] },
    { kind := .latex, name := "intro.tex", bytes := Text.utf8 "Hello".toList },
    { kind := .latex, name := "proof.tex", bytes := Text.utf8 "World".toList }]
  Config.build [.mergedStem "thesis", .logName "thesis.log"] = .ok c
    ∧ (names c sources).Nodup
    ∧ KeepsApart s (Context.consulting "1" ⟨"/w"⟩) c sources { tree := {} }
  := by
  intro s c sources
  have hbuild : Config.build [.mergedStem "thesis", .logName "thesis.log"] = .ok c := by
    decide +kernel
  obtain ⟨-, hnames, hapart⟩ := apart_of_nodup s hbuild
    (quiet_consulting "1" ⟨"/w"⟩) sources { tree := {} }
  have hnodup : (names c sources).Nodup := by
    apply hnames.mpr
    decide +kernel
  exact ⟨hbuild, hnodup, hapart hnodup⟩

/-- A configuration can be built whose log has the name of the artifact.  The log is then taken
for the artifact: a request is successful although the compiler makes nothing at all. -/
theorem log_taken_for_artifact :
  let s : Surroundings := { programs := fun _ _ T => (.ok (.exited 0), T) }
  let context := Context.consulting "1" ⟨"/w"⟩
  let c : Config := { compiler.logName := "merged.pdf" }
  let result := (run s (process context c []) { tree := {} }).1
  Config.build [.logName "merged.pdf"] = .ok c
    ∧ ¬ (names c []).Nodup
    ∧ result.toOption.any (fun report => report.compilation.success)
    ∧ ¬ Compile.Creates s.programs [] (compiling context c)
  := by
  intro s context c result
  refine ⟨?_, ?_, ?_, ?_⟩
  · decide +kernel
  · decide +kernel
  · decide +kernel
  · rintro ⟨log, T, hbefore, hafter⟩
    change T.exists? [] _ = true at hafter
    rw [hbefore] at hafter
    cases hafter

end Request

end Bindery
