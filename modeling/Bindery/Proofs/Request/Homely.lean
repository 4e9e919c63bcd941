import Bindery.Proofs.Compile.Actions
import Bindery.Proofs.Config
import Bindery.Proofs.Request.Apart
import Bindery.Proofs.Request.Story

/-!
# Jobs that stay at home

A job is `Homely` in a directory if it only looks at the directory and at files in it, writes and
removes files in it, announces events, looks packages up, and opens a log for a program that starts
in the directory or to add bytes to it.  What it does next does not depend on the handle of the log.
After it made its working directory, a request is homely in it (`homely_process`).
-/

namespace Bindery

open Dialogue (Only only_done only_question)

/-- The action looks at the directory or at a file in it, writes or removes a file in it, or announces
an event. -/
def Action.IsHomely (w : Path) : Action → Prop
  | stat path | read path => path = w ∨ ∃ name, Path.IsName name ∧ path = w.join name
  | write path _ | remove path => ∃ name, Path.IsName name ∧ path = w.join name
  | announce _ => True
  | _ => False

namespace Job

variable {α β : Type} {P : Action → Prop} {w log : Path}

/-- Everything that the job does is homely or satisfies `P`, but that it opens a log; and then it
starts a program in the directory that prints to the log, or it adds bytes to it. -/
inductive Homely (P : Action → Prop) (w log : Path) : Job α → Prop where
  | done (a : α) : Homely P w log (.done a)
  | ask {action : Action} {next : action.Answer → Job α} (homely : action.IsHomely w ∨ P action)
      (rest : ∀ answer, Homely P w log (next answer)) : Homely P w log (.ask action next)
  | start {next : Except OsError Handle → Job α} (invocation : Invocation)
      (more : Except OsError Ending → Job α) (inside : invocation.directory = some w)
      (refused : ∀ cause, Homely P w log (next (.error cause)))
      (opened : ∀ handle,
        next (.ok handle) = .ask (.launch { invocation with output := some handle }) more)
      (rest : ∀ answer, Homely P w log (more answer)) : Homely P w log (.ask (.openEnd log) next)
  | extend {next : Except OsError Handle → Job α} (bytes : Bytes)
      (more : Except OsError Unit → Job α)
      (refused : ∀ cause, Homely P w log (next (.error cause)))
      (opened : ∀ handle, next (.ok handle) = .ask (.append handle bytes) more)
      (rest : ∀ answer, Homely P w log (more answer)) : Homely P w log (.ask (.openEnd log) next)

theorem homely_of_only {job : Job α} (h : job.Only (Action.IsHomely w)) :
  Homely P w log job
  := by
  induction job with
  | done a => exact .done a
  | ask action next ih => exact .ask (Or.inl h.1) fun answer => ih answer (h.2 answer)

theorem homely_of_allowed {job : Job α} (h : job.Only P) :
  Homely P w log job
  := by
  induction job with
  | done a => exact .done a
  | ask action next ih => exact .ask (Or.inr h.1) fun answer => ih answer (h.2 answer)

/-- A sequence is homely if its parts are, for all values that the first one can have. -/
theorem Homely.bind_of_always {R : α → Prop} {job : Job α} {f : α → Job β} (h : Homely P w log job)
    (hR : job.Always R) (hf : ∀ a, R a → Homely P w log (f a)) :
  Homely P w log (job.bind f)
  := by
  induction h with
  | done a => exact hf a hR
  | ask homely rest ih => exact .ask homely fun answer => ih answer (hR answer)
  | start invocation more inside refused opened rest ih ih' =>
    refine .start invocation (fun r => (more r).bind f) inside (fun cause => ih cause (hR _)) ?_
      fun answer => ih' answer ?_
    · intro handle
      rw [opened]
      rfl
    · have hopened := hR (.ok 0)
      rw [opened] at hopened
      exact hopened answer
  | extend bytes more refused opened rest ih ih' =>
    refine .extend bytes (fun r => (more r).bind f) (fun cause => ih cause (hR _)) ?_
      fun answer => ih' answer ?_
    · intro handle
      rw [opened]
      rfl
    · have hopened := hR (.ok 0)
      rw [opened] at hopened
      exact hopened answer

theorem Homely.bind {job : Job α} {f : α → Job β} (h : Homely P w log job)
    (hf : ∀ a, Homely P w log (f a)) :
  Homely P w log (job.bind f)
  := h.bind_of_always (R := fun _ => True) (Dialogue.always_of_forall (fun _ => trivial) job)
    fun a _ => hf a

end Job

open Job (Homely homely_of_only homely_of_allowed)

variable {P : Action → Prop}

/-! ### Compiling -/

namespace Compile

variable {t : Task}

theorem homely_sign (e : Ending) :
  Homely P t.directory t.log (sign t e)
  := by
  unfold sign
  split
  · exact .done _
  · exact .extend _ (fun _ => .done (.ok e.code?)) (fun cause => .done _) (fun handle => rfl)
      fun _ => .done _

theorem homely_runPass (pass : Nat) :
  Homely P t.directory t.log (runPass t pass)
  := by
  rw [runPass_eq]
  refine .start (t.invocation 0) (conclude t pass) rfl (fun cause => .done _) (fun handle => rfl) ?_
  rintro (cause | (code | _ | _ | cause))
  · exact .done _
  · exact homely_sign _
  · exact homely_sign _
  · exact .done _
  · exact .done _

theorem homely_runPasses (hlog : Path.IsName t.config.logName) (ran : List Pass)
    (lastStart : Nat) (passes : List Nat) :
  Homely P t.directory t.log (runPasses t ran lastStart passes)
  := by
  have hannounce (event : Event) : Homely P t.directory t.log (t.announce event) :=
    homely_of_only (only_taskAnnounce t trivial)
  induction passes generalizing ran lastStart with
  | nil => exact .done _
  | cons pass passes ih =>
    have hlength : Homely P t.directory t.log
        (if passes.isEmpty then logLength t.log else .done lastStart) := by
      split
      · exact homely_of_only (only_logLength (Or.inr ⟨_, hlog, rfl⟩))
      · exact .done _
    rw [runPasses_cons]
    refine hlength.bind fun lastStart => (hannounce _).bind fun _ => (homely_runPass pass).bind ?_
    rintro (fault | exitCode)
    · exact .done _
    · exact (hannounce _).bind fun _ => ih _ _

/-- Compiling a document stays in its directory if the log and the artifact are named there. -/
theorem homely_compile {document : Path} (hdocument : document.fileName? = some t.fileName)
    (hlog : Path.IsName t.config.logName)
    (hartifact : Path.IsName (Path.stemOf t.fileName ++ "." ++ t.config.artifactExtension)) :
  Homely P t.directory t.log (compile t.config t.announces document t.directory)
  := by
  unfold compile
  rw [hdocument]
  have hread : Action.IsHomely t.directory (.read t.log) := Or.inr ⟨_, hlog, rfl⟩
  have hstale : (removeStale t.artifact).Only (Action.IsHomely t.directory) :=
    only_removeStale ⟨_, hartifact, rfl⟩
  refine Homely.bind ((homely_of_only hstale).bind ?_) ?_
  · rintro (fault | _)
    · exact .done _
    · exact homely_runPasses hlog _ _ _
  · rintro ⟨fault | lastStart, passes⟩
    · exact homely_of_only (only_fail hread fault passes)
    · exact homely_of_only (only_judge hread (Or.inr ⟨_, hartifact, rfl⟩) lastStart passes)

end Compile

/-! ### Requests -/

namespace Request

variable {context : Context} {c : Config} {w log : Path}

theorem homely_announce (c : Config) (event : Event) :
  Homely P w log (announce c event)
  := homely_of_only (only_announce c trivial)

theorem homely_keepAll (sources : List (SourceFile × Nat)) :
  Homely P w log (keepAll ⟨w⟩ sources)
  := homely_of_only (only_keepAll fun _ _ => ⟨_, SourceKind.isName_fileName _ _, rfl⟩)

/-- What extracting does with files is homely. -/
theorem isHomely_of_mild {source : Path} {action : Action}
    (hsource : ∃ name, Path.IsName name ∧ source = w.join name)
    (h : Machine.Mild (· = source) (IsImageIn w) (fun _ => False) action) :
  action.IsHomely w
  := by
  cases action with
  | stat path | read path =>
    obtain rfl := h
    exact Or.inr hsource
  | write path bytes =>
    obtain ⟨name, hname, rfl⟩ := h
    exact ⟨name, hname.isName, rfl⟩
  | _ => cases h

theorem homely_extractAll (total position : Nat) (sources : List (SourceFile × Nat)) :
  Homely P w log (extractAll c ⟨w⟩ total position (sources.map (keptSource ⟨w⟩)))
  := by
  induction sources generalizing position with
  | nil => exact .done _
  | cons source rest ih =>
    have hextract : Homely P w log (source.1.kind.extract (keptSource ⟨w⟩ source).path w) :=
      homely_of_only ((mild_extract source.1.kind source.2 w).mono fun _ =>
        isHomely_of_mild ⟨_, SourceKind.isName_fileName _ _, rfl⟩)
    have hone : Homely P w log (extractOne c ⟨w⟩ total position (keptSource ⟨w⟩ source)) :=
      (homely_announce c _).bind fun _ => hextract.bind fun _ =>
        (homely_announce c _).bind fun _ => .done _
    rw [List.map_cons, extractAll_cons]
    exact hone.bind fun _ => (ih (position + 1)).bind fun _ => .done _

variable (hc : c.Fits) (hlook : ∀ name, (context.isAvailable name).Only P)

include hc

theorem homely_compileMerged (outcomes : List Outcome) (document : Document) :
  Homely P context.directory (compiling context c).log
    (compileMerged c ⟨context.directory⟩ outcomes document)
  := by
  have hcompile : Homely P context.directory (compiling context c).log
      (compile c.compiler c.announces (context.directory.join c.mergedName) context.directory) :=
    Compile.homely_compile (t := compiling context c)
      (Path.fileName?_join _ hc.isName_mergedName) hc.log hc.isName_artifactName
  -- the document is compiled where it was written
  have hmerged : ((⟨context.directory⟩ : Workspace).writeMerged c.mergedName document.render).Always
      fun result => ∀ merged, result = .ok merged →
        merged = context.directory.join c.mergedName := by
    apply Dialogue.always_bind.mpr
    rintro (e | _) merged ⟨⟩
    rfl
  have hwrite : Action.IsHomely context.directory
      (.write (context.directory.join c.mergedName) (Text.utf8 document.render.toList)) :=
    ⟨_, hc.isName_mergedName, rfl⟩
  refine (homely_of_only (only_write hwrite)).bind_of_always hmerged ?_
  rintro (e | merged) hresult
  · exact .done _
  · obtain rfl := hresult merged rfl
    exact (homely_announce c _).bind fun _ => hcompile.bind fun _ =>
      (homely_announce c _).bind fun _ => .done _

include hlook

theorem homely_mergeExtracted (extractions : List Extraction) :
  Homely P context.directory (compiling context c).log
    (mergeExtracted context c ⟨context.directory⟩ extractions)
  := by
  unfold mergeExtracted
  dsimp only
  split
  · exact .done _
  · refine (homely_of_allowed (only_merge hlook _)).bind ?_
    rintro (malformed | document)
    · exact .done _
    · exact homely_compileMerged hc _ document

/-- A request makes its working directory, and is homely in it from then on if looking packages up
satisfies `P`. -/
theorem homely_process (sources : List SourceFile) :
  ∃ next : Except OsError Unit → Job (Except RequestError Report),
    process context c sources = .ask (.makeDirs context.directory) next
      ∧ (∀ cause, next (.error cause) = .done (.error (.workspaceCreate context.directory cause)))
      ∧ Homely P context.directory (compiling context c).log (next (.ok ()))
  := by
  refine ⟨_, rfl, fun cause => rfl, ?_⟩
  apply Homely.bind_of_always (R := fun result => ∀ w, result = .ok w → w = ⟨context.directory⟩)
  · have hstat : Action.IsHomely context.directory (.stat context.directory) := Or.inl rfl
    refine (homely_of_only (only_question hstat)).bind ?_
    rintro (cause | stat)
    · exact .done _
    · dsimp only
      split <;> exact .done _
  · rintro (cause | stat)
    · rintro w ⟨⟩
    · simp only [Dialogue.bind]
      split
      · rintro w ⟨⟩
        rfl
      · rintro w ⟨⟩
  · rintro (e | w) hprepared
    · exact .done _
    · obtain rfl := hprepared w rfl
      refine (homely_announce c _).bind fun _ =>
        (homely_keepAll _).bind_of_always (keeping_keepAll _ _) ?_
      intro result hkept
      cases hkept with
      | unkept => exact .done _
      | kept => exact (homely_extractAll _ _ _).bind fun _ => homely_mergeExtracted hc hlook _

end Request

end Bindery
