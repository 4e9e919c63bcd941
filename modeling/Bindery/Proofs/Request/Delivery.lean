import Bindery.Proofs.Mishap
import Bindery.Proofs.Request.Apart

/-!
# Copying the artifact to a file

`processToFile` replaces the file at its output path as a whole.  Whatever mishap befalls the call
and wherever it is cut short, the path shows what it showed before or all bytes of the artifact that
the compiler left (`Delivers`), and which of these it is at the end is told by the result.  The
artifact is copied to a temporary file first, whose name is never that of the output or of the
artifact (`location_temporary_ne`), and only the last action changes the output.  One exception has
to be made: where nothing was there may be a directory, if the call makes one there
(`directory_at_output`).
-/

namespace Bindery

open Dialogue (Only only_question Always always_bind always_of_forall)
open Job (Tidy touches)
open Machine (Atomic Passes answerAmid answerAmid_copy answerAmid_cases atomic_error atomic_rename
  cwd_runAmid keeps_of_copy keeps_of_tidy passes_end passes_start runAmid)

/-! ### The place of the artifact -/

namespace Compile

/-- The result names the artifact that is expected on success, and none on failure. -/
def Names (artifact : Path) (compilation : Compilation) : Prop :=
  compilation.artifact = if compilation.success then some artifact else none

theorem names_judge (t : Task) (lastStart : Nat) (passes : List Pass) :
  (judge t lastStart passes).Always (Names t.artifact)
  := by
  have hartifact (softWarning : Bool) :
      (judgeArtifact t softWarning passes).Always (Names t.artifact) := by
    refine always_bind.mpr (always_of_forall ?_ _)
    rintro (cause | stat) <;> rfl
  unfold judge
  dsimp only
  split
  · exact hartifact false
  · refine always_bind.mpr (always_of_forall (fun output => ?_) _)
    split
    · exact hartifact true
    · rfl

theorem names_fail (artifact log : Path) (fault : CompileFault) (passes : List Pass) :
  (fail log fault passes).Always (Names artifact)
  := by
  refine always_bind.mpr (always_of_forall ?_ _)
  rintro (cause | bytes) <;> rfl

/-- Compiling names the artifact that is expected. -/
theorem names_compile (c : CompilerConfig) (announces : Bool) {document : Path}
    {fileName : String} (hname : document.fileName? = some fileName) (directory : Path) :
  (compile c announces document directory).Always
    (Names ({ config := c, directory, fileName, announces } : Task).artifact)
  := by
  unfold compile
  rw [hname]
  refine always_bind.mpr (always_of_forall ?_ _)
  rintro ⟨fault | lastStart, passes⟩
  · exact names_fail _ _ _ _
  · exact names_judge _ _ _

end Compile

theorem Report.artifact_of_result {report : Report} {artifact : Path}
    (h : report.result = .ok artifact) :
  report.compilation.artifact = some artifact
  := by
  unfold Report.result at h
  split at h
  · next path hpath =>
    split at h
    · injection h with h
      rw [hpath, h]
    · cases h
  · cases h

namespace Request

variable {context : Context} {c : Config} {sources : List SourceFile} {output : Path}

theorem always_prepare (root : Path) :
  (Workspace.prepare root).Always fun prepared => ∀ w, prepared = .ok w → w.root = root
  := by
  refine always_bind.mpr (always_of_forall ?_ _)
  rintro (cause | _)
  · intro w hw
    cases hw
  · refine always_bind.mpr (always_of_forall ?_ _)
    rintro (cause | stat)
    · intro w hw
      cases hw
    · dsimp only
      split
      · intro w hw
        injection hw with hw
        rw [← hw]
      · intro w hw
        cases hw

/-- A report on a request names the artifact in its directory. -/
def Reports (c : Config) (directory : Path) (result : Except RequestError Report) : Prop :=
  ∀ report, result = .ok report →
    Compile.Names (directory.join c.artifactName) report.compilation

theorem reports_error (c : Config) (directory : Path) (e : RequestError) :
  Reports c directory (.error e)
  := by
  intro report hreport
  cases hreport

theorem always_compileMerged (hc : c.Fits) (w : Workspace) (outcomes : List Outcome)
    (document : Document) :
  (compileMerged c w outcomes document).Always (Reports c w.root)
  := by
  have hwrite : (w.writeMerged c.mergedName document.render).Always fun result =>
      ∀ merged, result = .ok merged → merged = w.root.join c.mergedName := by
    refine always_bind.mpr (always_of_forall ?_ _)
    rintro (cause | _) merged hmerged
    · cases hmerged
    · exact (Except.ok.inj hmerged).symm
  refine always_bind.mpr (hwrite.mono ?_)
  rintro (e | merged) hmerged
  · exact reports_error c w.root e
  · obtain rfl := hmerged merged rfl
    have hname := Path.fileName?_join w.root hc.isName_mergedName
    have hcompile := Compile.names_compile c.compiler c.announces hname w.root
    refine always_bind.mpr (always_of_forall (fun _ => ?_) _)
    generalize compile c.compiler c.announces (w.root.join c.mergedName) w.root = compiling at *
    refine always_bind.mpr (hcompile.mono fun compilation hcompilation => ?_)
    refine always_bind.mpr (always_of_forall (fun _ => ?_) _)
    rintro report ⟨⟩
    exact hcompilation

theorem always_reports (hc : c.Fits) (context : Context) (sources : List SourceFile) :
  (process context c sources).Always (Reports c context.directory)
  := by
  refine always_bind.mpr ((always_prepare context.directory).mono ?_)
  rintro (e | w) hprepared
  · exact reports_error c _ e
  · rw [← hprepared w rfl]
    refine always_bind.mpr (always_of_forall (fun _ => ?_) _)
    refine always_bind.mpr (always_of_forall ?_ _)
    rintro (e | kept)
    · exact reports_error c _ e
    · refine always_bind.mpr (always_of_forall (fun extractions => ?_) _)
      unfold mergeExtracted
      dsimp only
      split
      · exact reports_error c _ _
      · refine always_bind.mpr (always_of_forall ?_ _)
        rintro (malformed | document)
        · exact reports_error c _ _
        · exact always_compileMerged hc w _ document

/-- The result names no other artifact than the one that is expected in a directory. -/
def Expects (c : Config) (directory : Path) (result : Except RequestError Report) : Prop :=
  ∀ report artifact, result = .ok report → report.result = .ok artifact →
    artifact = directory.join c.artifactName

/-- A request that succeeds names the artifact in its working directory. -/
theorem always_process (hc : c.Fits) (context : Context) (sources : List SourceFile) :
  (process context c sources).Always (Expects c context.directory)
  := by
  apply (always_reports hc context sources).mono
  intro result hreports report artifact hreport hresult
  have hartifact := Report.artifact_of_result hresult
  rw [hreports report hreport] at hartifact
  split at hartifact
  · exact (Option.some.inj hartifact).symm
  · cases hartifact

/-! ### The temporary file -/

/-- The file that the artifact is copied to before that becomes the output. -/
def temporary (c : CompilerConfig) (output : Path) : Path :=
  output.withExtension (c.artifactExtension ++ ".tmp")

/-- The temporary file is neither the output nor the artifact. -/
theorem location_temporary_ne (hc : c.Fits) (cwd : Location) {name : String}
    (hname : output.fileName? = some name) (directory : Path) :
  ((temporary c.compiler output).place cwd).location ≠ (output.place cwd).location
    ∧ ((directory.join c.artifactName).place cwd).location
      ≠ ((temporary c.compiler output).place cwd).location
  := by
  have htemporary : temporary c.compiler output = output.withExtension "pdf.tmp" := by
    rw [temporary, hc.extension]
    rfl
  rw [htemporary, Path.location_withExtension cwd hname (by decide) (by decide),
    Path.location_of_fileName? cwd hname, Path.location_join _ _ hc.isName_artifactName]
  constructor
  · intro h
    have hsame := List.singleton_inj.mp (List.append_cancel_left h)
    exact Path.stemOf_append_ne name (by decide) hsame
  · intro h
    have hsame := List.singleton_inj.mp (List.append_inj_right' h (Eq.refl 1))
    rw [hc.artifactName_eq] at hsame
    have hlast := congrArg (fun s => s.toList.getLast?) hsame
    simp [String.toList_append] at hlast

/-! ### Delivering -/

/-- Makes the directory that the output is in. -/
def makeParent (output : Path) : Job (Except OsError Unit) :=
  match output.parent? with
  | some parent => if parent.text.isEmpty then pure (.ok ()) else act (.makeDirs parent)
  | none => pure (.ok ())

/-- Copies the artifact to the temporary file, and gives that the name of the output. -/
def replace (c : CompilerConfig) (artifact output : Path) :
    Except OsError Unit → Job (Except OsError Unit)
  | .error e => return .error e
  | .ok () => do
    match ← act (.copy artifact (temporary c output)) with
    | .error e => return .error e
    | .ok () => act (.rename (temporary c output) output)

theorem deliver_eq (c : CompilerConfig) (artifact output : Path) :
  deliver c artifact output = (makeParent output).bind (replace c artifact output)
  := by
  unfold deliver makeParent
  rcases output.parent? with _ | parent
  case' some =>
    dsimp only
    split
  all_goals
    -- What comes after the first step is the same in each case.
    apply congrArg (Dialogue.bind _)
    funext made
    rcases made with e | _
    · rfl
    · apply congrArg (Dialogue.bind _)
      funext copied
      cases copied <;> rfl

theorem makeParent_cases (output : Path) :
  makeParent output = .done (.ok ())
    ∨ ∃ parent, output.parent? = some parent ∧ makeParent output = act (.makeDirs parent)
  := by
  unfold makeParent
  cases output.parent? with
  | none => exact Or.inl rfl
  | some parent =>
    dsimp only
    split
    · exact Or.inl rfl
    · exact Or.inr ⟨parent, rfl, rfl⟩

theorem only_makeParent (output : Path) :
  (makeParent output).Only (Action.IsPlain (output.parent? = some ·))
  := by
  rcases makeParent_cases output with hnone | ⟨parent, hparent, hmake⟩
  · rw [hnone]
    trivial
  · rw [hmake]
    exact only_question hparent

variable {f : Fortune} {w : Machine × Nat} {cwd : Location} {way : Prop} {T T₀ S : Tree}

theorem touches_makeParent (output : Path) (w : Machine × Nat) :
  touches (answerAmid f) (makeParent output) w = []
  := by
  rcases makeParent_cases output with hnone | ⟨parent, -, hmake⟩
  · rw [hnone]
    rfl
  · rw [hmake]
    rfl

/-- Making the directory of the output changes no file. -/
theorem file?_makeParent (f : Fortune) (output : Path) (w : Machine × Nat) (l : Location) :
  (runAmid f (makeParent output) w).2.1.tree.file? l = w.1.tree.file? l
  := by
  rcases makeParent_cases output with hnone | ⟨parent, -, hmake⟩
  · rw [hnone]
    rfl
  · rw [hmake, Machine.runAmid_act]
    rcases answerAmid_cases f w (.makeDirs parent) with
      ⟨cause, refusal, T, -, hshows, hanswer⟩ | hanswer
    · rw [hanswer]
      rcases hshows with rfl | ⟨n, rfl⟩
      · rfl
      · exact Tree.file?_makeDirs _ _ _ l
    · rw [hanswer]
      exact Tree.file?_makeDirs _ _ _ l

/-- Making the directory of the output keeps a location, unless it makes a directory there. -/
theorem keeps_makeParent {l : Location} (hcwd : w.1.cwd = cwd) (h : T₀.Keeps cwd l way w.1.tree)
    (hway : ∀ parent, output.parent? = some parent → l ∈ parent.stops cwd → way)
    (hspares : ∀ n, (f n).Spares cwd l) :
  ∀ T, Passes f T (makeParent output) w → T₀.Keeps cwd l way T
  := by
  apply keeps_of_tidy (Job.tidy_of_plain (only_makeParent output)) hway hspares hcwd _ h
  rw [touches_makeParent]
  exact List.forall_mem_nil _

/-- However far it comes, copying to the temporary file keeps what the output shows. -/
theorem keeps_copyUpTo (hc : c.Fits) (h : T₀.Keeps cwd (output.place cwd).location way T)
    (artifact : Path) (n : Nat) :
  T₀.Keeps cwd (output.place cwd).location way
    (T.copyUpTo cwd artifact (temporary c.compiler output) n)
  := by
  cases hname : output.fileName? with
  | some name => exact h.copyUpTo (location_temporary_ne hc cwd hname artifact).1 n
  | none =>
    rcases T.copyUpTo_cases cwd artifact (temporary c.compiler output) n with
      hsame | ⟨mode, serial, opened, written, hopen, -⟩
    · rw [hsame]
      exact h
    · rw [temporary, Path.withExtension_of_no_fileName hname] at hopen
      exact absurd hopen (h.home.openFile_ne_ok hname)

/-- The temporary file is not the output, and it is complete, once the copy has succeeded. -/
theorem holding_temporary (hc : c.Fits) (hhome : T.IsHome cwd) {directory : Path}
    (h : T.copy cwd (directory.join c.artifactName) (temporary c.compiler output) = .ok S) :
  ((temporary c.compiler output).place cwd).location ≠ (output.place cwd).location
    ∧ ∃ bytes, T.holding ((directory.join c.artifactName).place cwd).location = .file bytes
      ∧ S.holding ((temporary c.compiler output).place cwd).location = .file bytes
  := by
  cases hname : output.fileName? with
  | some name =>
    obtain ⟨houtput, hartifact⟩ := location_temporary_ne hc cwd hname directory
    exact ⟨houtput, Tree.holding_of_copy h hartifact⟩
  | none =>
    obtain ⟨mode, serial, opened, _, _, -, hopen, -⟩ := Tree.exists_opened_of_copy h
    rw [temporary, Path.withExtension_of_no_fileName hname] at hopen
    exact absurd hopen (hhome.openFile_ne_ok hname)

/-- The output shows all bytes of the artifact that is in the working directory of another tree. -/
def ShowsArtifact (cwd : Location) (context : Context) (c : Config) (output : Path)
    (left T : Tree) : Prop :=
  ∃ bytes, left.holding ((context.directory.join c.artifactName).place cwd).location = .file bytes
    ∧ T.holding (output.place cwd).location = .file bytes

/-- Copying and renaming leads at once from a condition that copying keeps to one that the renamed
file brings about. -/
theorem atomic_replace_of {old new : Tree → Prop} (hc : c.Fits) (hcwd : w.1.cwd = cwd)
    (hhome : w.1.tree.IsHome cwd)
    (hcopy : ∀ T, Passes f T
      (act (.copy (context.directory.join c.artifactName) (temporary c.compiler output))) w → old T)
    (hrename : ∀ bytes T S,
      ((temporary c.compiler output).place cwd).location ≠ (output.place cwd).location →
      w.1.tree.holding ((context.directory.join c.artifactName).place cwd).location = .file bytes →
      old T → T.holding ((temporary c.compiler output).place cwd).location = .file bytes →
      T.rename cwd (temporary c.compiler output) output = .ok S → new S)
    (made : Except OsError Unit) :
  Atomic f (replace c.compiler (context.directory.join c.artifactName) output made) w old new
  := by
  subst hcwd
  cases made with
  | error e => exact atomic_error (hcopy _ (passes_start _ w))
  | ok _ =>
    have hcopied := hcopy _ (passes_end _ w)
    apply Atomic.after hcopy
    rw [Machine.runAmid_act] at hcopied ⊢
    rcases answerAmid_copy f w (context.directory.join c.artifactName)
        (temporary c.compiler output) with ⟨e, S, -, hanswer⟩ | ⟨S, hcopy, hanswer⟩
    · rw [hanswer] at hcopied ⊢
      exact atomic_error hcopied
    · rw [hanswer] at hcopied ⊢
      apply atomic_rename hcopied
      intro S' hmoved
      obtain ⟨hne, bytes, hartifact, htemporary⟩ := holding_temporary hc hhome hcopy
      exact hrename bytes _ S' hne hartifact hcopied htemporary hmoved

/-- Copying and renaming is atomic. -/
theorem atomic_replace (hc : c.Fits) (hcwd : w.1.cwd = cwd)
    (h : T₀.Keeps cwd (output.place cwd).location way w.1.tree)
    (made : Except OsError Unit) :
  Atomic f (replace c.compiler (context.directory.join c.artifactName) output made) w
    (T₀.Keeps cwd (output.place cwd).location way)
    (ShowsArtifact cwd context c output w.1.tree)
  := by
  apply atomic_replace_of hc hcwd h.home
  · exact keeps_of_copy hcwd h (keeps_copyUpTo hc h _)
  · intro bytes T S _ hartifact _ htemporary hrename
    exact ⟨bytes, hartifact, Tree.holding_of_rename hrename htemporary⟩

/-- Delivering the artifact is atomic. -/
theorem atomic_deliver (hc : c.Fits) (hcwd : w.1.cwd = cwd)
    (h : T₀.Keeps cwd (output.place cwd).location way w.1.tree)
    (hway : ∀ parent, output.parent? = some parent →
      (output.place cwd).location ∈ parent.stops cwd → way)
    (hspares : ∀ n, (f n).Spares cwd (output.place cwd).location) :
  Atomic f (deliver c.compiler (context.directory.join c.artifactName) output) w
    (T₀.Keeps cwd (output.place cwd).location way)
    (ShowsArtifact cwd context c output w.1.tree)
  := by
  have hparent := keeps_makeParent hcwd h hway hspares
  rw [deliver_eq]
  apply Atomic.after hparent
  apply (atomic_replace hc ((cwd_runAmid _ w).trans hcwd) (hparent _ (passes_end _ w)) _).mono
  · exact fun T hT => hT
  · rintro T ⟨bytes, hartifact, houtput⟩
    have hfile := file?_makeParent f output w
      ((context.directory.join c.artifactName).place cwd).location
    use bytes
    rw [Tree.holding_eq_file_of_file? hfile] at hartifact
    exact ⟨hartifact, houtput⟩

/-! ### A whole request -/

/-- What is done with the result of a request: its artifact is delivered. -/
def deliverResult (c : Config) (output : Path) :
    Except RequestError Report → Job (Except RequestError Report)
  | .error e => return .error e
  | .ok report =>
    match report.result with
    | .error e => return .error e
    | .ok artifact => do
      match ← deliver c.compiler artifact output with
      | .error cause => return .error (.outputWriteFailed output cause)
      | .ok () => return .ok report

theorem processToFile_eq (context : Context) (c : Config) (sources : List SourceFile)
    (output : Path) :
  processToFile context c sources output
    = (process context c sources).bind (deliverResult c output)
  := by
  unfold processToFile
  apply congrArg (Dialogue.bind _)
  funext result
  cases result <;> rfl

/-- The result of a request whose artifact was to be delivered. -/
def delivered (report : Report) (output : Path) : Except OsError Unit → Except RequestError Report
  | .error cause => .error (.outputWriteFailed output cause)
  | .ok () => .ok report

/-- Nothing is delivered, or the artifact in the working directory is. -/
theorem deliverResult_cases (output : Path) {result : Except RequestError Report}
    (hexpects : Expects c context.directory result) :
  (∃ e, deliverResult c output result = .done (.error e))
    ∨ ∃ report, deliverResult c output result
      = (deliver c.compiler (context.directory.join c.artifactName) output).bind
        fun written => .done (delivered report output written)
  := by
  cases result with
  | error e => exact Or.inl ⟨e, rfl⟩
  | ok report =>
    unfold deliverResult
    dsimp only
    cases hresult : report.result with
    | error e => exact Or.inl ⟨e, rfl⟩
    | ok artifact =>
      obtain rfl := hexpects report artifact rfl hresult
      right
      use report
      apply congrArg (Dialogue.bind _)
      funext written
      cases written <;> rfl

/-- What delivering the artifact leads to at once, dealing with the result of a request does. -/
theorem atomic_deliverResult_of {old new : Tree → Prop} (hold : old w.1.tree)
    {result : Except RequestError Report} (hexpects : Expects c context.directory result)
    (hatomic : Atomic f (deliver c.compiler (context.directory.join c.artifactName) output) w
      old new) :
  Atomic f (deliverResult c output result) w old new
  := by
  rcases deliverResult_cases output hexpects with ⟨e, hdone⟩ | ⟨report, hdeliver⟩
  · rw [hdone]
    exact atomic_error hold
  · rw [hdeliver]
    apply hatomic.reword
    intro written
    use delivered report output written, rfl
    cases written <;> rfl

theorem atomic_deliverResult (hc : c.Fits) (hcwd : w.1.cwd = cwd)
    (h : T₀.Keeps cwd (output.place cwd).location way w.1.tree)
    (hway : ∀ parent, output.parent? = some parent →
      (output.place cwd).location ∈ parent.stops cwd → way)
    (hspares : ∀ n, (f n).Spares cwd (output.place cwd).location)
    {result : Except RequestError Report} (hexpects : Expects c context.directory result) :
  Atomic f (deliverResult c output result) w
    (T₀.Keeps cwd (output.place cwd).location way)
    (ShowsArtifact cwd context c output w.1.tree)
  := atomic_deliverResult_of h hexpects (atomic_deliver hc hcwd h hway hspares)

/-- The call makes directories on the way to its working directory and to the directory of the
output; the output itself can be among them. -/
def MakesDirAt (cwd : Location) (context : Context) (output : Path) : Prop :=
  (output.place cwd).location ∈ context.directory.stops cwd
    ∨ ∃ parent, output.parent? = some parent ∧ (output.place cwd).location ∈ parent.stops cwd

/-- Whatever mishaps befall it, a request changes its output at once, and only if it succeeds: in
all trees that it passes, the output shows what it showed at first, or all bytes of the artifact
that the compiler left.  Only where nothing was, and where the call makes a directory, there may be
that directory instead. -/
theorem atomic_processToFile {choices : List Config.Choice} (hbuild : Config.build choices = .ok c)
    (hlook : ∀ name, (context.isAvailable name).Only Action.IsQuiet) (sources : List SourceFile)
    (output : Path) (f : Fortune) {m : Machine} (hhome : m.tree.IsHome m.cwd)
    (hspares : ∀ n, (f n).Spares m.cwd (output.place m.cwd).location)
    (hother : ∀ touch ∈ touches (answerAmid f) (process context c sources) (m, 0),
      (touch.path.place m.cwd).location ≠ (output.place m.cwd).location) :
  Atomic f (processToFile context c sources output) (m, 0)
    (m.tree.Retains (MakesDirAt m.cwd context output) (output.place m.cwd).location)
    (ShowsArtifact m.cwd context c output
      (runAmid f (process context c sources) (m, 0)).2.1.tree)
  := by
  have hc := Config.fits_of_build hbuild
  have hstart : m.tree.Keeps m.cwd (output.place m.cwd).location
      (MakesDirAt m.cwd context output) m.tree := Tree.Keeps.refl hhome _ _
  -- Until its artifact is there, the request touches other files than the output.
  have hprocess : ∀ T, Passes f T (process context c sources) (m, 0) →
      m.tree.Keeps m.cwd (output.place m.cwd).location (MakesDirAt m.cwd context output) T := by
    apply keeps_of_tidy (tidy_process hlook c sources) _ hspares rfl hother hstart
    rintro _ rfl hstop
    exact Or.inl hstop
  have hexpects : Expects c context.directory
      (runAmid f (process context c sources) (m, 0)).1 :=
    (always_process hc context sources).run_fst (answerAmid f) (m, 0)
  have hway : ∀ parent, output.parent? = some parent →
      (output.place m.cwd).location ∈ parent.stops m.cwd → MakesDirAt m.cwd context output :=
    fun parent hparent hstop => Or.inr ⟨parent, hparent, hstop⟩
  have hcwd : (runAmid f (process context c sources) (m, 0)).2.1.cwd = m.cwd := cwd_runAmid _ _
  have hdeliver := atomic_deliverResult hc hcwd (hprocess _ (passes_end _ _)) hway hspares
    hexpects
  rw [processToFile_eq]
  exact (Atomic.after hprocess hdeliver).mono (fun T hT => hT.retains) fun T hT => hT

/-- The copy is broken off after its first byte, so that the output still shows what it did. -/
theorem atomic_processToFile_interrupted :
  let s : Surroundings := { programs := .writing ⟨"/w/merged.pdf"⟩ [0x25, 0x50] }
  let f : Fortune := fun n => {
    surroundings := s
    mishap := if n = 11 then some { cause := .resourceBusy, progress := some 1 } else none }
  let context := Context.consulting "1" ⟨"/w"⟩
  let output : Path := ⟨"/out.pdf"⟩
  let m : Machine := {
    tree := { nodes := [(["out.pdf"], .file 0 newFileMode [0x6f])], nextSerial := 1 } }
  let left := (runAmid f (process context {} []) (m, 0)).2.1.tree
  let ended := runAmid f (processToFile context {} [] output) (m, 0)
  Atomic f (processToFile context {} [] output) (m, 0)
      (m.tree.Retains (MakesDirAt [] context output) ["out.pdf"])
      (ShowsArtifact [] context {} output left)
    ∧ left.holding ["w", "merged.pdf"] = .file [0x25, 0x50]
    ∧ ended.2.1.tree.holding ["out.pdf.tmp"] = .file [0x25]
    ∧ ended.2.1.tree.holding ["out.pdf"] = .file [0x6f]
  := by
  intro s f context output m left ended
  refine ⟨?_, ?_, ?_, ?_⟩
  · have hbuild : Config.build [] = .ok {} := rfl
    have hother : ∀ touch ∈ touches (answerAmid f) (process context {} []) (m, 0),
        (touch.path.place m.cwd).location ≠ (output.place m.cwd).location := by decide +kernel
    have hplace : (output.place m.cwd).location = ["out.pdf"] := by decide +kernel
    have hatomic := atomic_processToFile hbuild (quiet_consulting "1" ⟨"/w"⟩) [] output f
      (Tree.isHome_nil m.tree)
      (fun _ => Turn.spares_of_programs (Programs.spare_writing (by decide +kernel))) hother
    rw [hplace] at hatomic
    exact hatomic
  · decide +kernel
  · decide +kernel
  · decide +kernel

/-- A job that fails and leaves a directory where nothing was does not retain what was there. -/
theorem not_atomic_of_directory {α ε : Type} {job : Job (Except ε α)} {w : Machine × Nat}
    {l : Location} {new : Tree → Prop} (hnothing : w.1.tree.holding l = .nothing)
    (hfails : (runAmid f job w).1.isOk = false)
    (hdir : (runAmid f job w).2.1.tree.holding l = .directory) :
  ¬ Atomic f job w (w.1.tree.Retains False l) new
  := by
  intro hatomic
  cases hresult : (runAmid f job w).1 with
  | ok a =>
    rw [hresult] at hfails
    cases hfails
  | error e =>
    rcases hatomic.error e hresult with hsame | ⟨hway, -⟩
    · rw [hdir, hnothing] at hsame
      cases hsame
    · exact hway

/-- The exception is needed for both sorts of directories: a call can make its output on the way to
the directory that the output is in, or as its working directory. -/
theorem directory_at_output :
  let s : Surroundings := { programs := .writing ⟨"/w/merged.pdf"⟩ [0x25, 0x50] }
  let f : Fortune := .calm s
  let context := Context.consulting "1" ⟨"/w"⟩
  let m : Machine := { tree := {} }
  Config.build [] = .ok {} ∧ ∀ output ∈ [(⟨"/a/../a"⟩ : Path), ⟨"/w"⟩],
    (∀ n, (f n).Spares [] (output.place []).location)
      ∧ (∀ touch ∈ touches (answerAmid f) (process context {} []) (m, 0),
        (touch.path.place []).location ≠ (output.place []).location)
      ∧ ¬ Atomic f (processToFile context {} [] output) (m, 0)
        (m.tree.Retains False (output.place []).location)
        (ShowsArtifact [] context {} output
          (runAmid f (process context {} []) (m, 0)).2.1.tree)
  := by
  intro s f context m
  have hspares {l : Location} (hne : ((⟨"/w/merged.pdf"⟩ : Path).place []).location ≠ l)
      (n : Nat) : (f n).Spares [] l :=
    Turn.spares_of_programs (Programs.spare_writing hne)
  refine ⟨rfl, ?_⟩
  rw [List.forall_mem_cons, List.forall_mem_singleton]
  constructor
  · refine ⟨hspares (by decide +kernel), by decide +kernel, ?_⟩
    exact not_atomic_of_directory (by decide +kernel) (by decide +kernel) (by decide +kernel)
  · refine ⟨hspares (by decide +kernel), by decide +kernel, ?_⟩
    exact not_atomic_of_directory (by decide +kernel) (by decide +kernel) (by decide +kernel)

end Request

end Bindery
