import Bindery.Proofs.Request.Accepted
import Bindery.Proofs.Request.Names
import Bindery.Proofs.Request.Tidy

/-!
# What a request touches

The files that a request may touch are known beforehand (`plan`): it writes its sources, the
images of its notebooks and the merged document, removes an old artifact, and opens the log before
and after each pass.  In every run it touches some of them, each at most as often as planned, and
nothing else (`touches_process`).
-/

namespace Bindery

open Machine (answer run run_bind)
open Job (touches touches_act touches_bind touches_done touches_eq_nil touches_of_quiet)
open scoped List

/-- The files of the given names in a directory, treated alike. -/
def Touch.each (how : Treatment) (root : Path) (names : List String) : List Touch :=
  names.map fun name => { how, path := root.join name }

theorem Touch.each_append (how : Treatment) (root : Path) (names others : List String) :
  Touch.each how root (names ++ others) = Touch.each how root names ++ Touch.each how root others
  := List.map_append

variable {s : Surroundings} {m : Machine}

theorem touches_run_bind {α β : Type} (job : Job α) (f : α → Job β) (m : Machine) :
  touches (answer s) (job.bind f) m
    = touches (answer s) job m ++ touches (answer s) (f (run s job m).1) (run s job m).2
  := touches_bind (answer s) job f m

theorem touches_after_quiet {α β : Type} {job : Job α} (h : job.Only Action.IsQuiet)
    (f : α → Job β) (m : Machine) :
  touches (answer s) (job.bind f) m = touches (answer s) (f (run s job m).1) (run s job m).2
  := by rw [touches_run_bind, touches_of_quiet _ h, List.nil_append]

/-! ### Extracting -/

/-- What is written for a notebook is the images that are asked for. -/
theorem touches_interpret {α : Type} (assets : Path) (x : Notebook.Rendering α) (m : Machine) :
  touches (answer s) (x.interpret (Notebook.saveImage assets)) m
    = Touch.each .written assets
      (Notebook.asked (fun m image => run s (Notebook.saveImage assets image) m) x m)
  := by
  induction x generalizing m with
  | done a => rfl
  | ask image next ih =>
    have hsave : touches (answer s) (Notebook.saveImage assets image) m
        = [⟨.written, assets.join image.name⟩] := by
      rw [Notebook.saveImage, Dialogue.bind_eq, touches_bind]
      cases (Dialogue.run (answer s) (act (.write (assets.join image.name) image.bytes)) m).1 <;>
        rfl
    rw [Dialogue.interpret, touches_bind, hsave, ih]
    rfl

/-- Extracting a notebook writes images of it, each at most once. -/
theorem touches_notebook {path : Path} {bytes : Bytes} {stem : String} (assets : Path)
    (hread : m.tree.read m.cwd path = .ok bytes) (hstem : path.fileStem? = some stem) :
  touches (answer s) (Notebook.extract path assets) m
    <+ Touch.each .written assets
      (((Notebook.ofBytes? bytes).map (Notebook.images stem)).getD [])
  := by
  have hbytes := run_readSource (s := s) path m
  rw [hread] at hbytes
  rw [Notebook.extract, Dialogue.bind_eq, touches_after_quiet (Request.only_readSource trivial),
    hbytes]
  dsimp only [Except.mapError]
  cases Notebook.ofBytes? bytes with
  | none => exact List.nil_sublist _
  | some n =>
    dsimp only
    rw [hstem, Dialogue.bind_eq, touches_bind, touches_interpret]
    change _ ++ [] <+ _
    rw [List.append_nil]
    exact (Notebook.asked_render _ stem n m).map _

namespace Request

variable {c : Config} {w : Workspace}

/-- Extracting a source writes its images, each at most once. -/
theorem touches_extract {source : SourceFile × Nat}
    (hread : m.tree.read m.cwd (keptSource w source).path = .ok source.1.bytes) :
  touches (answer s) (source.1.kind.extract (keptSource w source).path w.root) m
    <+ Touch.each .written w.root (imagesOf source)
  := by
  have hstem : (keptSource w source).path.fileStem?
      = some (Path.stemOf (source.1.kind.fileName source.2)) := by
    rw [Path.fileStem?, keptSource, Path.fileName?_join _ (SourceKind.isName_fileName _ _)]
    rfl
  unfold imagesOf imagesFrom
  cases hkind : source.1.kind with
  | latex =>
    rw [SourceKind.extract, Markup.extract, Dialogue.bind_eq,
      touches_after_quiet (only_readSource trivial)]
    cases (run s (readSource (keptSource w source).path) m).1 <;>
      exact List.nil_sublist _
  | slides =>
    rw [SourceKind.extract, touches_of_quiet _ (only_deck trivial)]
    exact List.nil_sublist _
  | notebook =>
    rw [hkind] at hstem
    exact touches_notebook w.root hread hstem

theorem touches_extractOne {source : SourceFile × Nat}
    (hread : m.tree.read m.cwd (keptSource w source).path = .ok source.1.bytes)
    (total position : Nat) :
  touches (answer s) (extractOne c w total position (keptSource w source)) m
    <+ Touch.each .written w.root (imagesOf source)
  := by
  obtain ⟨htree, hcwd⟩ := run_announce (s := s) c
    (.sourceBegun position total (keptSource w source).path.nameForReports) m
  simp only [extractOne, Dialogue.bind_eq, touches_bind, touches_of_quiet _ (only_announce c trivial),
    List.nil_append]
  change touches _ _ _ ++ [] <+ _
  rw [List.append_nil]
  apply touches_extract
  change (run s (announce c _) m).2.tree.read (run s (announce c _) m).2.cwd _ = _
  rw [htree, hcwd]
  exact hread

/-- Extracting sources writes their images, each at most once. -/
theorem touches_extractAll {sources : List (SourceFile × Nat)}
    (hread : ∀ source ∈ sources,
      m.tree.read m.cwd (keptSource w source).path = .ok source.1.bytes)
    (total position : Nat) :
  touches (answer s) (extractAll c w total position (sources.map (keptSource w))) m
    <+ Touch.each .written w.root (sources.flatMap imagesOf)
  := by
  induction sources generalizing position m with
  | nil => exact List.Sublist.refl []
  | cons source rest ih =>
    obtain ⟨hfirst, hrest⟩ := List.forall_mem_cons.mp hread
    have hmild := mild_extractOne (c := c) (w := w) total position source
    have hothers := ih
      (fun other hother => read_after_mild (s := s) hmild (hrest other hother)) (position + 1)
    rw [List.map_cons, extractAll_cons, touches_bind, List.flatMap_cons, Touch.each_append]
    apply (touches_extractOne hfirst total position).append
    rw [touches_bind]
    change _ ++ [] <+ _
    rw [List.append_nil]
    exact hothers

/-! ### Keeping -/

/-- Writing a file in a directory touches it. -/
theorem touches_write (w : Workspace) (name : String) (bytes : Bytes) (m : Machine) :
  touches (answer s) (w.write name bytes) m = Touch.each .written w.root [name]
  := by
  rw [Workspace.write, Dialogue.bind_eq, touches_bind]
  cases (Dialogue.run (answer s) (act (.write (w.root.join name) bytes)) m).1 <;> rfl

/-- Keeping sources writes their files, each at most once. -/
theorem touches_keepAll (sources : List (SourceFile × Nat)) (m : Machine) :
  touches (answer s) (keepAll w sources) m
    <+ Touch.each .written w.root
      (sources.map fun source => source.1.kind.fileName source.2)
  := by
  induction sources generalizing m with
  | nil => exact List.Sublist.refl []
  | cons source rest ih =>
    obtain ⟨source, index⟩ := source
    rw [keepAll, Dialogue.bind_eq, touches_bind, Workspace.persist, touches_write, List.map_cons]
    apply List.Sublist.cons_cons
    cases (Dialogue.run (answer s) (w.write (source.kind.fileName index) source.bytes) m).1 with
    | error e => exact List.nil_sublist _
    | ok path =>
      dsimp only
      rw [Dialogue.bind_eq, touches_bind]
      have hrest := ih (Dialogue.run (answer s)
        (w.write (source.kind.fileName index) source.bytes) m).2
      cases (Dialogue.run (answer s) (keepAll w rest)
          (Dialogue.run (answer s) (w.write (source.kind.fileName index) source.bytes) m).2).1 with
      | error e | ok kept =>
        change _ ++ [] <+ _
        rw [List.append_nil]
        exact hrest

end Request

/-! ### Compiling -/

namespace Compile

theorem touches_sign (t : Task) (e : Ending) (m : Machine) :
  touches (answer s) (sign t e) m <+ [⟨.opened, t.log⟩]
  := by
  unfold sign
  split
  · exact List.nil_sublist _
  · rw [Dialogue.bind_eq, touches_bind, touches_act, Action.touches]
    cases (Dialogue.run (answer s) (act (.openEnd t.log)) m).1 <;> exact List.Sublist.refl _

theorem touches_conclude (t : Task) (pass : Nat) (result : Except OsError Ending) (m : Machine) :
  touches (answer s) (conclude t pass result) m <+ [⟨.opened, t.log⟩]
  := by
  by_cases hover : ∃ e, result = .ok e ∧ e.IsOver
  · obtain ⟨e, rfl, he⟩ := hover
    rw [conclude_of_isOver t he]
    exact touches_sign t e m
  · obtain ⟨fault, hfault⟩ := conclude_of_not_isOver t
      (fun e hresult he => hover ⟨e, hresult, he⟩) pass
    rw [hfault]
    exact List.nil_sublist _

/-- A pass opens the log before and after it. -/
theorem touches_runPass (t : Task) (pass : Nat) (m : Machine) :
  touches (answer s) (runPass t pass) m <+ List.replicate 2 ⟨.opened, t.log⟩
  := by
  rw [runPass_eq, touches_bind, touches_act, Action.touches, List.replicate_succ]
  apply List.Sublist.cons_cons
  cases (Dialogue.run (answer s) (act (.openEnd t.log)) m).1 with
  | error cause => exact List.nil_sublist _
  | ok log =>
    rw [touches_bind]
    exact touches_conclude t pass _ _

theorem touches_runPasses (t : Task) (ran : List Pass) (lastStart : Nat) (passes : List Nat)
    (m : Machine) :
  touches (answer s) (runPasses t ran lastStart passes) m
    <+ List.replicate (2 * passes.length) ⟨.opened, t.log⟩
  := by
  induction passes generalizing ran lastStart m with
  | nil => exact List.nil_sublist _
  | cons pass passes ih =>
    have hlength (m : Machine) : touches (answer s)
        (if passes.isEmpty then logLength t.log else .done lastStart) m = [] := by
      split
      · exact touches_of_quiet _ (only_logLength trivial) m
      · rfl
    rw [runPasses_cons, touches_bind, hlength, List.nil_append,
      touches_after_quiet (only_taskAnnounce t trivial), touches_bind, List.length_cons, Nat.mul_succ, Nat.add_comm, List.replicate_add]
    apply (touches_runPass t pass _).append
    generalize (Dialogue.run (answer s) (runPass t pass) _) = ran'
    obtain ⟨result, m'⟩ := ran'
    cases result with
    | error fault => exact List.nil_sublist _
    | ok exitCode =>
      dsimp only
      rw [touches_after_quiet (only_taskAnnounce t trivial)]
      exact ih _ _ _

/-- Compiling removes an old artifact, and then opens nothing but the log. -/
theorem touches_compile (c : CompilerConfig) (announces : Bool) {document : Path}
    {fileName : String} (hname : document.fileName? = some fileName) (directory : Path)
    (m : Machine) :
  let t : Task := { config := c, directory, fileName, announces }
  touches (answer s) (compile c announces document directory) m
    <+ ⟨.removed, t.artifact⟩ :: List.replicate (2 * compilerPasses) ⟨.opened, t.log⟩
  := by
  intro t
  have hstale (m : Machine) :
      touches (answer s) (removeStale t.artifact) m = [⟨.removed, t.artifact⟩] := by
    rw [removeStale, Dialogue.bind_eq, touches_bind, touches_act, Action.touches]
    cases (Dialogue.run (answer s) (act (.remove t.artifact)) m).1 with
    | ok _ => rfl
    | error cause => cases cause <;> rfl
  have hall (m : Machine) : touches (answer s) (runAll t) m
      <+ ⟨.removed, t.artifact⟩ :: List.replicate (2 * compilerPasses) ⟨.opened, t.log⟩ := by
    rw [runAll, Dialogue.bind_eq, touches_bind, hstale]
    apply List.Sublist.cons_cons
    cases (Dialogue.run (answer s) (removeStale t.artifact) m).1 with
    | error fault => exact List.nil_sublist _
    | ok _ => exact touches_runPasses t [] 0 _ _
  rw [compile, hname]
  dsimp only
  rw [Dialogue.bind_eq, touches_bind]
  rw [← List.append_nil (_ :: _)]
  apply (hall m).append
  generalize Dialogue.run (answer s) (runAll t) m = ended
  obtain ⟨⟨result, passes⟩, m'⟩ := ended
  cases result with
  | error fault => rw [touches_of_quiet _ (only_fail trivial _ _)]
  | ok lastStart => rw [touches_of_quiet _ (only_judge trivial trivial _ _)]

end Compile

/-! ### A whole request -/

namespace Request

/-- What a request touches when it merges and compiles: it writes the merged document, removes
an old artifact, and opens the log before and after each pass. -/
def latePlan (c : Config) (root : Path) : List Touch :=
  Touch.each .written root [c.mergedName] ++ Touch.each .removed root [c.artifactName]
    ++ Touch.each .opened root (List.replicate (2 * compilerPasses) c.compiler.logName)

/-- What a request touches if nothing stops it. -/
def plan (c : Config) (sources : List SourceFile) (root : Path) : List Touch :=
  Touch.each .written root (keptNames sources ++ imageNames sources) ++ latePlan c root

variable {c : Config} {sources : List SourceFile}

theorem touches_compileMerged (hc : c.Fits) (w : Workspace) (outcomes : List Outcome)
    (document : Document) (m : Machine) :
  touches (answer s) (compileMerged c w outcomes document) m <+ latePlan c w.root
  := by
  rw [compileMerged, Workspace.writeMerged, Dialogue.bind_eq, touches_run_bind, touches_write,
    run_workspace_write, latePlan, List.append_assoc]
  apply (List.Sublist.refl _).append
  cases m.tree.write m.cwd (w.root.join c.mergedName) (Text.utf8 document.render.toList) with
  | error cause => exact List.nil_sublist _
  | ok tree =>
    have hcompile := Compile.touches_compile (s := s) c.compiler c.announces
      (Path.fileName?_join w.root hc.isName_mergedName) w.root
    simp only [Dialogue.bind_eq, touches_bind, touches_of_quiet _ (only_announce c trivial),
      List.nil_append]
    rw [Dialogue.pure_eq, touches_done, List.append_nil, Touch.each, Touch.each,
      List.map_replicate]
    exact hcompile _

theorem touches_mergeExtracted (hc : c.Fits) {context : Context}
    (hlook : ∀ name, (context.isAvailable name).Only Action.IsQuiet) (w : Workspace)
    (extractions : List Extraction) (m : Machine) :
  touches (answer s) (mergeExtracted context c w extractions) m <+ latePlan c w.root
  := by
  unfold mergeExtracted
  dsimp only
  split
  · exact List.nil_sublist _
  · rw [Dialogue.bind_eq, touches_after_quiet (only_merge hlook _)]
    split
    · exact List.nil_sublist _
    · exact touches_compileMerged hc w _ _ _

theorem touches_keeping (context : Context) (c : Config) (sources : List SourceFile)
    (m : Machine) :
  touches (answer s) (keeping context c sources) m
    <+ Touch.each .written context.directory (keptNames sources)
  := by
  have hprepare : touches (answer s) (Workspace.prepare context.directory) m = [] :=
    touches_eq_nil _ (only_prepare rfl rfl) m
  rw [keeping, Dialogue.bind_eq, touches_run_bind, hprepare, List.nil_append]
  cases hprepared : run s (Workspace.prepare context.directory) m with
  | mk result m' =>
    cases result with
    | error e => exact List.nil_sublist _
    | ok w =>
      obtain ⟨rfl, -⟩ := root_of_run_prepare hprepared
      dsimp only
      rw [Dialogue.bind_eq, touches_after_quiet (only_announce c trivial),
        Dialogue.bind_eq, touches_run_bind, ← List.append_nil (Touch.each _ _ _)]
      apply (touches_keepAll _ _).append
      split <;> exact List.nil_sublist _

/-- In every run a request touches some of the files that are planned, each at most as often as
planned, and nothing else. -/
theorem touches_process (hc : c.Fits) {context : Context}
    (hlook : ∀ name, (context.isAvailable name).Only Action.IsQuiet) :
  touches (answer s) (process context c sources) m <+ plan c sources context.directory
  := by
  rw [process_eq, touches_run_bind, plan, Touch.each_append, List.append_assoc]
  apply (touches_keeping context c sources m).append
  cases hkept : run s (keeping context c sources) m with
  | mk result m' =>
    cases result with
    | error e => exact List.nil_sublist _
    | ok found =>
      obtain ⟨w, kept⟩ := found
      obtain ⟨rfl, rfl, -⟩ := of_run_keeping hkept
      obtain ⟨-, hread⟩ := read_of_run_keeping hkept
      dsimp only
      rw [finishing, Dialogue.bind_eq, touches_bind]
      apply (touches_extractAll hread _ _).append
      exact touches_mergeExtracted hc hlook _ _ _

end Request

end Bindery
