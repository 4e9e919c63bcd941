import Bindery.Proofs.CommandLine.Work

/-!
# The parts of a run

A run reads its sources (`run_eq`), handles its request and concludes with what is done about the
result (`runIn_eq`), in a directory that it leaves or removes at its end if it has made it itself
(`runInTemporary_eq`), and ends with an exit status (`runProgram_eq`).  Beside each part stands what
it asks for, and that it panics exactly if something cannot be printed (`sensitive_run`).
-/

namespace Bindery

open Dialogue (Only only_done)

/-- The configuration of a run fits, if it has no fault. -/
theorem Settings.fits_of_config {s : Settings} {c : Config} (h : s.config = .ok c) :
  c.Fits
  := by
  let choices : List Config.Choice :=
    [.compilerProgram s.compiler, .lookupProgram s.kpsewhich, .passTimeout s.timeout,
      .allowPartial (!s.strict)] ++ if s.showsProgress then [.announces] else []
  have hbuild : s.config = Config.build choices := by
    unfold Settings.config Config.build choices
    cases s.showsProgress <;> rfl
  exact Config.fits_of_build (hbuild ▸ h)

namespace CommandLine

open Request (deliverResult only_deliverResult only_work_process)

variable {σ : Type} {answer : σ → (action : Action) → action.Answer × σ} (isUnicode : Path → Bool)

/-! ### Reading the sources -/

theorem readSources_cons (kind : SourceKind) (path : Path) (rest : List (SourceKind × Path)) :
  readSources ((kind, path) :: rest) = .ask (.read path) fun
    | .error cause => .done (.error (.failed {
        subject := "Failed to read " ++ kind.name ++ " source " ++ Text.quoted path.text
        causes := [cause.message] }))
    | .ok bytes => (readSources rest).andThen fun sources =>
        .done (.ok ({ kind, name := path.nameForReports, bytes } :: sources))
  := by
  apply congrArg (Dialogue.ask _)
  funext read
  cases read <;> rfl

theorem only_readSources {P : Action → Prop} (h : ∀ path, P (.read path))
    (files : List (SourceKind × Path)) :
  (readSources files).Only P
  := by
  induction files with
  | nil => trivial
  | cons file rest ih =>
    rw [readSources_cons]
    refine ⟨h _, ?_⟩
    rintro (cause | bytes)
    · trivial
    · exact ih.andThen fun sources => only_done _

theorem only_work_readSources (files : List (SourceKind × Path)) :
  (readSources files).Only Action.IsWork
  := only_readSources (fun _ => trivial) files

theorem sensitive_readSources (files : List (SourceKind × Path)) (x : σ) :
  Job.Sensitive answer (readSources files) x
  := by
  induction files generalizing x with
  | nil => exact Job.sensitive_ok [] x
  | cons file rest ih =>
    rw [readSources_cons]
    apply Job.sensitive_ask
    · exact not_false
    · rcases (answer x (.read file.2)).1 with cause | bytes
      · exact Job.sensitive_failed _ _
      · exact (ih _).andThen fun sources => Job.sensitive_ok _ _

/-! ### Conclusions -/

theorem only_complainLines {P : Action → Prop} (h : ∀ text, P (.complain text))
    (lines : List String) :
  (complainLines lines).Only P
  := by
  induction lines with
  | nil => trivial
  | cons line lines ih => exact Only.andThen ⟨h _, fun _ => trivial⟩ fun _ => ih

/-- A result is reported on the standard error output, if not as a structured value. -/
theorem only_reportResult {P : Action → Prop} {s : Settings}
    (hjson : s.json = true → ∀ text, P (.print text)) (hlines : ∀ text, P (.complain text))
    (r : Report) (closing : List String) :
  (reportResult isUnicode s r closing).Only P
  := by
  unfold reportResult
  split
  · next h =>
    split
    · trivial
    · exact ⟨hjson h _, fun _ => trivial⟩
  · split
    · trivial
    · exact only_complainLines hlines _

theorem sensitive_reportResult (s : Settings) (r : Report) (closing : List String) (x : σ) :
  Job.Sensitive answer (reportResult isUnicode s r closing) x
  := by
  unfold reportResult
  split
  · split
    · exact Job.sensitive_failed _ x
    · exact Job.sensitive_printLine _ x
  · split
    · exact Job.sensitive_ok () x
    · exact Job.sensitive_complainLines _ x

/-- What a run does about the result of its request. -/
def conclude (isUnicode : Path → Bool) (s : Settings) (c : Config)
    (result : Except RequestError Report) : Job (Except Halt Unit) :=
  match s.output with
  | some output => do
    match ← deliverResult c output result with
    | .error e => return .error (failed e)
    | .ok r => reportResult isUnicode s r [summary r output]
  | none =>
    match result with
    | .error e => return .error (failed e)
    | .ok r => (reportResult isUnicode s r []).andThen fun () =>
      match r.result with
      | .error e => return .error (failed e)
      | .ok artifact => if s.json then return .ok () else printLine artifact.text

theorem only_conclude {P : Action → Prop} (hdirs : ∀ path, P (.makeDirs path))
    (hcopy : ∀ source target, P (.copy source target))
    (hrename : ∀ source target, P (.rename source target)) (hprint : ∀ text, P (.print text))
    (hlines : ∀ text, P (.complain text)) (s : Settings) (c : Config)
    (result : Except RequestError Report) :
  (conclude isUnicode s c result).Only P
  := by
  have hreport (r : Report) (closing : List String) :
      (reportResult isUnicode s r closing).Only P :=
    only_reportResult isUnicode (fun _ => hprint) hlines r closing
  unfold conclude
  split
  · refine (only_deliverResult hdirs hcopy hrename c _ result).bind ?_
    rintro (e | r)
    · trivial
    · exact hreport r _
  · cases result with
    | error e => trivial
    | ok r =>
      refine (hreport r []).andThen fun _ => ?_
      split
      · trivial
      · split
        · trivial
        · exact ⟨hprint _, fun _ => trivial⟩

theorem sensitive_conclude (s : Settings) (c : Config) (result : Except RequestError Report)
    (x : σ) :
  Job.Sensitive answer (conclude isUnicode s c result) x
  := by
  have hdeliver (output : Path) :
      (deliverResult c output result).Only fun action => ¬ action.IsTelling :=
    only_deliverResult (fun _ => not_false) (fun _ _ => not_false) (fun _ _ => not_false) c output
      result
  unfold conclude
  split
  · apply Job.sensitive_bind (hdeliver _)
    split
    · exact Job.sensitive_failed _ _
    · exact sensitive_reportResult isUnicode s _ _ _
  · cases result with
    | error e => exact Job.sensitive_failed _ x
    | ok r =>
      apply (sensitive_reportResult isUnicode s r [] x).andThen
      intro _
      split
      · exact Job.sensitive_failed _ _
      · split
        · exact Job.sensitive_ok () _
        · exact Job.sensitive_printLine _ _

/-! ### Runs in a directory -/

/-- The request of a run in a directory. -/
def request (s : Settings) (c : Config) (sources : List SourceFile) (directory : Path) :
    Job (Except Halt (Except RequestError Report)) :=
  showProgress s.showsProgress (process (.looking s.id directory c) c sources)

theorem only_request {c : Config} (hc : c.Fits) (s : Settings) (sources : List SourceFile)
    (directory : Path) :
  (request s c sources directory).Only fun action => action.IsWork ∨ Progress.IsVerdict action
  := only_showProgress (only_work_process hc s.id directory sources)

/-- A run handles its request, and then concludes. -/
theorem runIn_eq (s : Settings) (c : Config) (sources : List SourceFile) (directory : Path) :
  runIn isUnicode s c sources directory
    = (request s c sources directory).andThen (conclude isUnicode s c)
  := by
  have hsilent (output : Path) (result : Except RequestError Report) :
      Job.Silent (deliverResult c output result) :=
    only_deliverResult (fun _ => rfl) (fun _ _ => rfl) (fun _ _ => rfl) c output result
  unfold runIn request conclude
  cases s.output with
  | none =>
    apply congrArg (Dialogue.andThen _)
    funext result
    cases result <;> rfl
  | some output =>
    dsimp only
    rw [runToFile, Request.processToFile_eq, showProgress_bind (hsilent output),
      Dialogue.andThen_assoc]
    apply congrArg (Dialogue.andThen _)
    funext result
    rw [Dialogue.andThen, Dialogue.bind_assoc]
    rfl

theorem sensitive_runIn {c : Config} (hc : c.Fits) (s : Settings) (sources : List SourceFile)
    (directory : Path) (x : σ) :
  Job.Sensitive answer (runIn isUnicode s c sources directory) x
  := by
  rw [runIn_eq]
  exact (sensitive_showProgress (only_work_process hc s.id directory sources) x).andThen
    fun result => sensitive_conclude isUnicode s c result _

/-! ### Temporary directories -/

theorem runInTemporary_eq (s : Settings) (c : Config) (sources : List SourceFile) :
  runInTemporary isUnicode s c sources = .ask .makeTemporary fun
    | .error cause => .done (.error (.failed {
        subject := "Failed to create a temporary working directory", causes := [cause.message] }))
    | .ok directory => (runIn isUnicode s c sources directory).bind (leave s directory)
  := by
  apply congrArg (Dialogue.ask _)
  funext made
  cases made <;> rfl

theorem only_leave {P : Action → Prop} (hremove : ∀ directory, P (.removeAll directory))
    (hlines : ∀ text, P (.complain text)) (s : Settings) (directory : Path)
    (result : Except Halt Unit) :
  (leave s directory result).Only P
  := by
  unfold leave
  split
  · exact ⟨hremove directory, fun _ => trivial⟩
  · split
    · trivial
    · exact Only.andThen ⟨hlines _, fun _ => trivial⟩ fun _ => only_done _

/-- What is left of a run that was not broken off panics only where the directory cannot be told. -/
theorem sensitive_leave {result : Except Halt Unit} (h : result ≠ .error .panicked) (s : Settings)
    (directory : Path) (x : σ) :
  Job.Sensitive answer (leave s directory result) x
  := by
  unfold leave
  split
  · apply Job.sensitive_ask
    · exact not_false
    · exact Job.sensitive_done h _
  · split
    · exact Job.sensitive_done h x
    · exact (Job.sensitive_complainLine _ x).andThen fun _ => Job.sensitive_done h _

theorem sensitive_runInTemporary {c : Config} (hc : c.Fits) (s : Settings)
    (sources : List SourceFile) (x : σ) :
  Job.Sensitive answer (runInTemporary isUnicode s c sources) x
  := by
  rw [runInTemporary_eq]
  apply Job.sensitive_ask
  case h => exact not_false
  generalize (answer x .makeTemporary).2 = y
  split
  · exact Job.sensitive_failed _ y
  · next directory _ =>
    -- A run that was broken off is still that when its directory is removed.
    have hpanicked : ((runIn isUnicode s c sources directory).run answer y).1 = .error .panicked
        ↔ Job.Falters answer (runIn isUnicode s c sources directory) y :=
      sensitive_runIn isUnicode hc s sources directory y
    rw [Job.Sensitive, Dialogue.run_bind, Job.falters_bind, ← hpanicked]
    by_cases hresult : ((runIn isUnicode s c sources directory).run answer y).1 = .error .panicked
    · rw [hresult]
      exact iff_of_true rfl (Or.inl rfl)
    · rw [or_iff_right hresult]
      exact sensitive_leave hresult s directory _

/-! ### Whole runs -/

variable (answer) in
theorem sensitive_run (s : Settings) (x : σ) :
  Job.Sensitive answer (run isUnicode s) x
  := by
  apply (sensitive_readSources s.sources x).andThen
  intro sources
  unfold proceed
  split
  · exact Job.sensitive_failed _ _
  · split
    · exact Job.sensitive_failed _ _
    · next hconfig =>
      have hc := Settings.fits_of_config hconfig
      unfold runPlaced
      split
      · exact sensitive_runIn isUnicode hc s sources _ _
      · exact sensitive_runInTemporary isUnicode hc s sources _

theorem runProgram_eq {arguments : List String} {environment : String → Option String}
    {given : Given} (h : Given.ofArguments arguments environment = .ok given) :
  runProgram arguments environment isUnicode = (run isUnicode (Settings.ofGiven given)).bind close
  := by
  unfold runProgram
  rw [h]
  rfl

theorem only_close {P : Action → Prop} (hlines : ∀ text, P (.complain text))
    (result : Except Halt Unit) :
  (close result).Only P
  := by
  rcases result with (failure | _) | ⟨⟨⟩⟩
  · exact ⟨hlines _, fun _ => trivial⟩
  · trivial
  · trivial

end CommandLine

end Bindery
