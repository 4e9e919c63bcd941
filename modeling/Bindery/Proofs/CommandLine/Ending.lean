import Bindery.Proofs.CommandLine.Parts

/-!
# How a run ends

A run `Concludes` its request if it reads all sources, of which there is one at least, its
configuration has no fault, and it has a directory to work in; there is only one result to which
that can lead (`Concludes.unique`), and what is done before and behind are asides (`proceeds_run`).
A run `Accomplishes` a report if the result is that report, the document was compiled, the artifact
was copied where it is asked for, and the report can be written where it is to be a structured value.
Unless it panics, it ends without a failure exactly then, and prints the path of the artifact if that
stays where it is (`ends_run`).
-/

namespace Bindery

open Dialogue (Only only_question)
open Request (deliverResult only_deliverResult)

/-! ### What is picked from a transcript -/

namespace Job

variable {σ α β γ : Type} (answer : σ → (action : Action) → action.Answer × σ)
  (pick : (action : Action) → action.Answer → Option γ)

/-- What is picked from the actions of a job with their answers, in order. -/
def picked (job : Job α) (x : σ) : List γ :=
  (job.transcript answer x).filterMap fun entry => pick entry.1 entry.2

theorem picked_andThen_of_ok {ε : Type} {job : Job (Except ε α)} {f : α → Job (Except ε β)} {a : α}
    {x : σ} (h : (job.run answer x).1 = .ok a) :
  picked answer pick (job.andThen f) x
    = picked answer pick job x ++ picked answer pick (f a) (job.run answer x).2
  := by rw [picked, Dialogue.transcript_andThen_of_ok h, List.filterMap_append, picked, picked]

theorem picked_andThen_of_error {ε : Type} {job : Job (Except ε α)} {f : α → Job (Except ε β)}
    {e : ε} {x : σ} (h : (job.run answer x).1 = .error e) :
  picked answer pick (job.andThen f) x = picked answer pick job x
  := by rw [picked, Dialogue.transcript_andThen_of_error h, picked]

theorem picked_bind (job : Job α) (f : α → Job β) (x : σ) :
  picked answer pick (job.bind f) x = picked answer pick job x
    ++ picked answer pick (f (job.run answer x).1) (job.run answer x).2
  := by rw [picked, Dialogue.transcript_bind, List.filterMap_append, picked, picked]

variable {pick}

theorem picked_eq_nil {P : Action → Prop} {job : Job α} (h : job.Only P)
    (hpick : ∀ action, P action → ∀ r, pick action r = none) (x : σ) :
  picked answer pick job x = []
  := by
  apply List.filterMap_eq_nil_iff.mpr
  intro entry hentry
  exact hpick entry.1 (h.transcript answer x entry hentry) entry.2

end Job

namespace Action

/-- The text that is to be printed on the standard output. -/
def printed? : (action : Action) → action.Answer → Option String
  | print text, _ => some text
  | _, _ => none

/-- The action prints nothing on the standard output. -/
def PrintsNothing (action : Action) : Prop :=
  ∀ r, action.printed? r = none

theorem IsWork.printsNothing {action : Action} (h : action.IsWork) :
  action.PrintsNothing
  := by
  cases action with
  | print => cases h
  | _ => exact fun _ => rfl

/-- The action is one of those that a run takes before and after its request. -/
def IsAside : Action → Prop
  | read _ | complain _ | makeTemporary | removeAll _ => True
  | _ => False

theorem IsAside.printsNothing {action : Action} (h : action.IsAside) :
  action.PrintsNothing
  := by
  cases action with
  | print => cases h
  | _ => exact fun _ => rfl

end Action

namespace CommandLine

variable {σ : Type} (isUnicode : Path → Bool)
  (answer : σ → (action : Action) → action.Answer × σ)

/-! ### Success -/

/-- The named files can be read, one after another, and hold the sources. -/
inductive Reads : List (SourceKind × Path) → σ → List SourceFile → σ → Prop where
  | nil {x : σ} : Reads [] x [] x
  | cons {kind : SourceKind} {path : Path} {rest : List (SourceKind × Path)} {x y z : σ}
      {bytes : Bytes} {sources : List SourceFile}
      (hread : answer x (.read path) = (.ok bytes, y)) (hrest : Reads rest y sources z) :
      Reads ((kind, path) :: rest) x ({ kind, name := path.nameForReports, bytes } :: sources) z

/-- A run has a directory to work in: the one it is given, or a temporary one that it makes. -/
inductive Places (s : Settings) (x : σ) : Path → σ → Prop where
  | given {directory : Path} (h : s.workDir = some directory) : Places s x directory x
  | made {directory : Path} {y : σ} (h : s.workDir = none)
      (hmade : answer x .makeTemporary = (.ok directory, y)) : Places s x directory y

/-- The document was compiled, and the artifact was copied where it is asked for. -/
def Finishes (s : Settings) (c : Config) (x : σ) (r : Report) : Prop :=
  r.compilation.success = true ∧ ∀ output, s.output = some output →
    ∃ artifact, r.compilation.artifact = some artifact
      ∧ ((deliver c.compiler artifact output).run answer x).1 = .ok ()

/-- A report can be written, if it is to be a structured value: all its paths are Unicode. -/
def Reportable (s : Settings) (r : Report) : Prop :=
  s.json = true → ∀ path ∈ r.paths, isUnicode path = true

/-- With its sources and its configuration a run works in a directory, its request leads to a
report, it finishes with that, and the report can be written. -/
inductive Completes (s : Settings) (c : Config) (sources : List SourceFile) (x : σ) (r : Report) :
    Prop where
  | intro {directory : Path} {y z : σ} (hplace : Places answer s x directory y)
      (hrequest : (request s c sources directory).run answer y = (.ok (.ok r), z))
      (hfinishes : Finishes answer s c z r) (hreportable : Reportable isUnicode s r) :
      Completes s c sources x r

/-- A run does all that it is to do, and comes to a report. -/
inductive Accomplishes (s : Settings) (x : σ) (r : Report) : Prop where
  | intro {sources : List SourceFile} {y : σ} {c : Config}
      (hreads : Reads answer s.sources x sources y) (hsources : sources ≠ [])
      (hconfig : s.config = .ok c) (hcompletes : Completes isUnicode answer s c sources y r) :
      Accomplishes s x r

variable {isUnicode answer} {s : Settings} {c : Config} {sources : List SourceFile} {directory : Path}

/-! ### Reading the sources -/

theorem run_readSources_iff {files : List (SourceKind × Path)} {x y : σ} :
  (readSources files).run answer x = (.ok sources, y) ↔ Reads answer files x sources y
  := by
  induction files generalizing sources x with
  | nil =>
    constructor
    · intro h
      cases h
      exact .nil
    · rintro ⟨⟩
      rfl
  | cons file rest ih =>
    obtain ⟨kind, path⟩ := file
    rw [readSources_cons, Dialogue.run]
    constructor
    · intro h
      rcases hread : answer x (.read path) with ⟨cause | bytes, x'⟩
      · rw [hread] at h
        cases h
      · -- The files after it are read where reading this one has led.
        rw [hread] at h
        dsimp only at h
        rcases hrest : (readSources rest).run answer x' with ⟨halt | others, z⟩
        · rw [Dialogue.run_andThen_of_error (congrArg Prod.fst hrest)] at h
          cases h
        · rw [Dialogue.run_andThen_of_ok (congrArg Prod.fst hrest), hrest] at h
          cases h
          exact .cons hread (ih.mp hrest)
    · rintro (_ | ⟨hread, hrest⟩)
      have hothers := ih.mpr hrest
      rw [hread]
      dsimp only
      rw [Dialogue.run_andThen_of_ok (congrArg Prod.fst hothers), hothers]
      rfl

/-! ### Conclusions -/

theorem picked_reportResult (hjson : s.json = false) (r : Report) (closing : List String) (x : σ) :
  Job.picked answer Action.printed? (reportResult isUnicode s r closing) x = []
  := by
  have honly : (reportResult isUnicode s r closing).Only Action.PrintsNothing :=
    only_reportResult isUnicode (fun h => by rw [hjson] at h; cases h) (fun _ _ => rfl) r closing
  exact Job.picked_eq_nil answer honly (fun _ h => h) x

theorem serialize_of_unicode {r : Report} (h : ∀ path ∈ r.paths, isUnicode path = true) :
  r.serialize isUnicode = .ok r.toJson.pretty
  := if_pos (List.all_eq_true.mpr h)

theorem serialize_of_not_unicode {r : Report} (h : ¬ ∀ path ∈ r.paths, isUnicode path = true) :
  r.serialize isUnicode = .error "path contains invalid UTF-8 characters"
  := if_neg fun hall => h (List.all_eq_true.mp hall)

variable (isUnicode answer s) in
/-- A result is reported exactly if it can be written, unless that panics. -/
theorem run_reportResult (r : Report) (closing : List String) (x : σ) :
  Reportable isUnicode s r
      ∧ Job.IsTold ((reportResult isUnicode s r closing).run answer x).1
    ∨ ¬ Reportable isUnicode s r
      ∧ ∃ failure, ((reportResult isUnicode s r closing).run answer x).1 = .error (.failed failure)
  := by
  unfold reportResult
  split
  · next hjson =>
    by_cases hunicode : ∀ path ∈ r.paths, isUnicode path = true
    · rw [serialize_of_unicode hunicode]
      exact Or.inl ⟨fun _ => hunicode, Job.isTold_told _⟩
    · rw [serialize_of_not_unicode hunicode]
      exact Or.inr ⟨fun h => hunicode (h hjson), _, rfl⟩
  · next hjson =>
    refine Or.inl ⟨fun h => absurd h hjson, ?_⟩
    split
    · exact Or.inl rfl
    · exact (Job.isTold_complainLines _).run_fst answer x

/-- What is reported as the result of a request that names its artifact. -/
theorem result_of_names {r : Report} {artifact : Path}
    (h : Compile.Names artifact r.compilation) :
  r.result = if r.compilation.success then .ok artifact
    else .error (.compilationFailed r.compilation.message)
  := by
  rw [Report.result, h]
  cases r.compilation.success <;> rfl

/-- The ways in which a run ends, with what it is to print on the standard output.  It is told which
reports count as a success; a run that panics may have succeeded or not. -/
inductive Ends (s : Settings) (Success : Report → Prop) :
    Except Halt Unit → List String → Prop where
  | failed {failure : Failure} {printed : List String} (hnone : ∀ r, ¬ Success r)
      (hprinted : s.json = false → printed = []) : Ends s Success (.error (.failed failure)) printed
  | panicked {printed : List String}
      (hprinted : s.json = false → s.output ≠ none → printed = []) :
      Ends s Success (.error .panicked) printed
  | finished {r : Report} {artifact : Path} {printed : List String} (hsuccess : Success r)
      (hartifact : r.compilation.artifact = some artifact)
      (hprinted : s.json = false →
        printed = if s.output.isSome then [] else [artifact.text ++ "\n"]) :
      Ends s Success (.ok ()) printed

theorem Ends.congr {Success Success' : Report → Prop} {result : Except Halt Unit}
    {printed : List String} (h : Ends s Success result printed)
    (hiff : ∀ r, Success r ↔ Success' r) :
  Ends s Success' result printed
  := by
  obtain rfl : Success = Success' := funext fun r => propext (hiff r)
  exact h

/-- A run that has ended can still be broken off. -/
theorem Ends.break_off {Success : Report → Prop} {result : Except Halt Unit} {printed : List String}
    (h : Ends s Success result printed) :
  Ends s Success (.error .panicked) printed
  := by
  refine .panicked fun hjson houtput => ?_
  cases h with
  | failed hnone hprinted => exact hprinted hjson
  | panicked hprinted => exact hprinted hjson houtput
  | finished hsuccess hartifact hprinted =>
    rw [hprinted hjson, if_pos (Option.isSome_iff_ne_none.mpr houtput)]

theorem result_eq_ok_iff {r : Report} {artifact : Path} :
  r.result = .ok artifact
    ↔ r.compilation.success = true ∧ r.compilation.artifact = some artifact
  := by
  unfold Report.result
  cases r.compilation.artifact <;> cases r.compilation.success <;> simp

section Copied

variable {r : Report} {output : Path} (houtput : s.output = some output) (x : σ)

include houtput

/-- A copy is made of the artifact exactly if the run finishes with it. -/
theorem run_deliverResult :
  Finishes answer s c x r ∧ ((deliverResult c output (.ok r)).run answer x).1 = .ok r
    ∨ ¬ Finishes answer s c x r
      ∧ ∃ e, ((deliverResult c output (.ok r)).run answer x).1 = .error e
  := by
  unfold deliverResult
  dsimp only
  cases hresult : r.result with
  | error e =>
    refine Or.inr ⟨?_, e, rfl⟩
    rintro ⟨hsuccess, hcopied⟩
    obtain ⟨artifact, hartifact, -⟩ := hcopied output houtput
    cases hresult.symm.trans (result_eq_ok_iff.mpr ⟨hsuccess, hartifact⟩)
  | ok artifact =>
    obtain ⟨hsuccess, hartifact⟩ := result_eq_ok_iff.mp hresult
    have hiff : Finishes answer s c x r
        ↔ ((deliver c.compiler artifact output).run answer x).1 = .ok () := by
      simp [Finishes, hsuccess, hartifact, houtput]
    dsimp only
    rw [Dialogue.bind_eq, Dialogue.run_bind, hiff]
    rcases ((deliver c.compiler artifact output).run answer x).1 with cause | ⟨⟨⟩⟩
    · exact Or.inr ⟨nofun, _, rfl⟩
    · exact Or.inl ⟨rfl, rfl⟩

/-- A run that has copied its artifact goes on to report that. -/
theorem run_conclude_of_copied :
  ((conclude isUnicode s c (.ok r)).run answer x).1
    = match ((deliverResult c output (.ok r)).run answer x).1 with
      | .error e => .error (failed e)
      | .ok r' => ((reportResult isUnicode s r' [summary r' output]).run answer
        ((deliverResult c output (.ok r)).run answer x).2).1
  := by
  unfold conclude
  rw [houtput]
  dsimp only
  rw [Dialogue.bind_eq, Dialogue.run_bind]
  cases ((deliverResult c output (.ok r)).run answer x).1 <;> rfl

/-- A run that has copied its artifact reports that, and prints nothing else. -/
theorem printed_conclude_of_copied :
  Job.picked answer Action.printed? (conclude isUnicode s c (.ok r)) x
    = match ((deliverResult c output (.ok r)).run answer x).1 with
      | .error _ => []
      | .ok r' => Job.picked answer Action.printed? (reportResult isUnicode s r' [summary r' output])
        ((deliverResult c output (.ok r)).run answer x).2
  := by
  have hquiet : Job.picked answer Action.printed? (deliverResult c output (.ok r)) x = [] :=
    Job.picked_eq_nil answer (only_deliverResult (P := Action.PrintsNothing) (fun _ _ => rfl)
      (fun _ _ _ => rfl) (fun _ _ _ => rfl) c output (.ok r)) (fun _ h => h) x
  unfold conclude
  rw [houtput]
  dsimp only
  rw [Dialogue.bind_eq, Job.picked_bind, hquiet, List.nil_append]
  cases ((deliverResult c output (.ok r)).run answer x).1 <;> rfl

end Copied

section Conclude

variable {r : Report} {artifact : Path}

theorem artifact_of_names (h : Compile.Names artifact r.compilation)
    (hsuccess : r.compilation.success = true) :
  r.compilation.artifact = some artifact
  := by rw [h, if_pos hsuccess]

theorem not_finishes_of_failed (h : r.compilation.success = false) (x : σ) :
  ¬ Finishes answer s c x r
  := by
  rintro ⟨hsuccess, -⟩
  rw [h] at hsuccess
  cases hsuccess

variable (hnames : Compile.Names artifact r.compilation)

include hnames

/-- Where the artifact is to stay, its path is printed. -/
theorem ends_conclude_of_kept (houtput : s.output = none) (x : σ) :
  Ends s (fun r' => r' = r ∧ Finishes answer s c x r' ∧ Reportable isUnicode s r')
    ((conclude isUnicode s c (.ok r)).run answer x).1
    (Job.picked answer Action.printed? (conclude isUnicode s c (.ok r)) x)
  := by
  unfold conclude
  rw [houtput]
  dsimp only
  rcases run_reportResult isUnicode answer s r [] x with
    ⟨hreportable, hok | hpanicked⟩ | ⟨hnone, failure, hfailed⟩
  · rw [Dialogue.run_andThen_of_ok hok, Job.picked_andThen_of_ok answer _ hok, result_of_names hnames]
    cases hsuccess : r.compilation.success with
    | false =>
      refine .failed ?_ fun hjson => ?_
      · rintro _ ⟨rfl, hfinishes, -⟩
        exact not_finishes_of_failed hsuccess x hfinishes
      · exact List.append_eq_nil_iff.mpr ⟨picked_reportResult hjson r [] x, rfl⟩
    | true =>
      have hfinishes : Finishes answer s c x r :=
        ⟨hsuccess, fun output h => by rw [houtput] at h; cases h⟩
      have hartifact := artifact_of_names hnames hsuccess
      cases hjson : s.json with
      | true =>
        exact .finished ⟨rfl, hfinishes, hreportable⟩ hartifact fun h => by rw [hjson] at h; cases h
      | false =>
        -- The path is all that is printed, if that succeeds.
        generalize ((reportResult isUnicode s r []).run answer x).2 = y
        rw [picked_reportResult hjson, List.nil_append]
        change Ends s _ (told (answer y (.print (artifact.text ++ "\n"))).1) [artifact.text ++ "\n"]
        rcases Job.isTold_told (answer y (.print (artifact.text ++ "\n"))).1 with hok | hpanicked
        · rw [hok]
          refine .finished ⟨rfl, hfinishes, hreportable⟩ hartifact fun _ => ?_
          rw [houtput]
          rfl
        · rw [hpanicked]
          exact .panicked fun _ h => absurd houtput h
  · rw [Dialogue.run_andThen_of_error hpanicked]
    exact .panicked fun _ h => absurd houtput h
  · rw [Dialogue.run_andThen_of_error hfailed, Job.picked_andThen_of_error answer _ hfailed]
    refine .failed ?_ fun hjson => picked_reportResult hjson r [] x
    rintro _ ⟨rfl, -, hreportable⟩
    exact hnone hreportable

/-- Where the artifact is to be copied, nothing is printed but the structured result. -/
theorem ends_conclude_of_copied {output : Path} (houtput : s.output = some output) (x : σ) :
  Ends s (fun r' => r' = r ∧ Finishes answer s c x r' ∧ Reportable isUnicode s r')
    ((conclude isUnicode s c (.ok r)).run answer x).1
    (Job.picked answer Action.printed? (conclude isUnicode s c (.ok r)) x)
  := by
  rw [run_conclude_of_copied houtput, printed_conclude_of_copied houtput]
  rcases run_deliverResult houtput x with ⟨hfinishes, hdelivered⟩ | ⟨hnone, e, hdelivered⟩
  · rw [hdelivered]
    dsimp only
    generalize ((deliverResult c output (.ok r)).run answer x).2 = y
    have hquiet (hjson : s.json = false) : Job.picked answer Action.printed?
        (reportResult isUnicode s r [summary r output]) y = [] := picked_reportResult hjson _ _ y
    rcases run_reportResult isUnicode answer s r [summary r output] y with
      ⟨hreportable, hok | hpanicked⟩ | ⟨hnone, failure, hfailed⟩
    · rw [hok]
      refine .finished ⟨rfl, hfinishes, hreportable⟩ (artifact_of_names hnames hfinishes.1) ?_
      intro hjson
      rw [houtput]
      exact hquiet hjson
    · rw [hpanicked]
      exact .panicked fun hjson _ => hquiet hjson
    · rw [hfailed]
      refine .failed ?_ hquiet
      rintro _ ⟨rfl, -, hreportable⟩
      exact hnone hreportable
  · rw [hdelivered]
    refine .failed ?_ fun _ => rfl
    rintro _ ⟨rfl, hfinishes, -⟩
    exact hnone hfinishes

end Conclude

/-- After its request a run ends according to the report, if there is one. -/
theorem ends_conclude {result : Except RequestError Report} {artifact : Path}
    (hnames : ∀ r, result = .ok r → Compile.Names artifact r.compilation) (x : σ) :
  Ends s (fun r => result = .ok r ∧ Finishes answer s c x r ∧ Reportable isUnicode s r)
    ((conclude isUnicode s c result).run answer x).1
    (Job.picked answer Action.printed? (conclude isUnicode s c result) x)
  := by
  cases result with
  | error e =>
    have hnone (r : Report) :
        ¬ (Except.error e = .ok r ∧ Finishes answer s c x r ∧ Reportable isUnicode s r) := by
      rintro ⟨⟨⟩, -⟩
    unfold conclude
    cases s.output with
    | none => exact .failed hnone fun _ => rfl
    | some output => exact .failed hnone fun _ => rfl
  | ok r =>
    have hreport (r' : Report) :
        r' = r ∧ Finishes answer s c x r' ∧ Reportable isUnicode s r'
          ↔ Except.ok (ε := RequestError) r = .ok r' ∧ Finishes answer s c x r'
            ∧ Reportable isUnicode s r' := by
      rw [Except.ok.injEq, eq_comm]
    cases houtput : s.output with
    | none => exact (ends_conclude_of_kept (hnames r rfl) houtput x).congr hreport
    | some output => exact (ends_conclude_of_copied (hnames r rfl) houtput x).congr hreport

/-! ### Runs in a directory -/

/-- A request prints nothing on the standard output. -/
theorem printed_request (hc : c.Fits) (z : σ) :
  Job.picked answer Action.printed? (request s c sources directory) z = []
  := by
  apply Job.picked_eq_nil answer (only_request hc s sources directory)
  rintro action (h | ⟨success, failed, rfl⟩)
  · exact h.printsNothing
  · exact fun _ => rfl

/-- From leaving a directory nothing is picked but a removal, or a line about it. -/
theorem picked_leave {γ : Type} {pick : (action : Action) → action.Answer → Option γ}
    (hremove : ∀ directory r, pick (.removeAll directory) r = none)
    (hlines : ∀ text r, pick (.complain text) r = none) (result : Except Halt Unit) (x : σ) :
  Job.picked answer pick (leave s directory result) x = []
  := by
  have honly := only_leave (P := fun action => ∀ r, pick action r = none) hremove hlines s directory
    result
  exact Job.picked_eq_nil answer honly (fun _ h => h) x

/-- A run ends as it did when its directory is left, unless that panics. -/
theorem run_leave (s : Settings) (directory : Path) (result : Except Halt Unit) (x : σ) :
  ((leave s directory result).run answer x).1 = result
    ∨ ((leave s directory result).run answer x).1 = .error .panicked
  := by
  unfold leave
  split
  · exact Or.inl rfl
  · split
    · exact Or.inl rfl
    · rcases (Job.isTold_complainLine _).run_fst answer x with hok | hpanicked
      · rw [Dialogue.run_andThen_of_ok hok]
        exact Or.inl rfl
      · rw [Dialogue.run_andThen_of_error hpanicked]
        exact Or.inr rfl

section Temporary

variable {y z w : σ} {result : Except Halt Unit}
  (hmade : answer y .makeTemporary = (.ok directory, z))
  (hrun : (runIn isUnicode s c sources directory).run answer z = (result, w))

include hmade hrun

theorem run_runInTemporary :
  ((runInTemporary isUnicode s c sources).run answer y).1
    = ((leave s directory result).run answer w).1
  := by
  rw [runInTemporary_eq, Dialogue.run, hmade]
  dsimp only
  rw [Dialogue.run_bind, hrun]

/-- A run in a temporary directory makes it, does what a run in the directory does, and leaves
it. -/
theorem transcript_runInTemporary :
  (runInTemporary isUnicode s c sources).transcript answer y
    = ⟨.makeTemporary, .ok directory⟩ :: ((runIn isUnicode s c sources directory).transcript answer z
      ++ (leave s directory result).transcript answer w)
  := by
  rw [runInTemporary_eq, Dialogue.transcript, hmade]
  dsimp only
  rw [Dialogue.transcript_bind, hrun]

theorem picked_runInTemporary {γ : Type} (pick : (action : Action) → action.Answer → Option γ) :
  Job.picked answer pick (runInTemporary isUnicode s c sources) y
    = (pick .makeTemporary (.ok directory)).toList
      ++ Job.picked answer pick (runIn isUnicode s c sources directory) z
      ++ Job.picked answer pick (leave s directory result) w
  := by
  rw [Job.picked, transcript_runInTemporary hmade hrun, List.filterMap_cons, List.filterMap_append]
  dsimp only
  cases pick .makeTemporary (.ok directory) <;> rfl

end Temporary

/-! ### Whole runs -/

/-- A run is ready for its request: it has read all sources, of which there is one at least, its
configuration has no fault, and it has a directory to work in. -/
inductive Placed (answer : σ → (action : Action) → action.Answer × σ) (s : Settings) (x : σ)
    (c : Config) (sources : List SourceFile) (directory : Path) (z : σ) : Prop where
  | intro {y : σ} (hreads : Reads answer s.sources x sources y) (hsources : sources ≠ [])
      (hconfig : s.config = .ok c) (hplace : Places answer s y directory z) :
      Placed answer s x c sources directory z

/-- A run comes to the end of its request, which leads to the result. -/
inductive Concludes (answer : σ → (action : Action) → action.Answer × σ) (s : Settings) (x : σ)
    (c : Config) (result : Except RequestError Report) (w : σ) : Prop where
  | intro {sources : List SourceFile} {directory : Path} {z : σ}
      (hplaced : Placed answer s x c sources directory z)
      (hrequest : (request s c sources directory).run answer z = (.ok result, w)) :
      Concludes answer s x c result w

section Concludes

variable {x z z' w w' : σ} {c' : Config} {sources' : List SourceFile} {directory' : Path}
  {result result' : Except RequestError Report}

theorem Reads.unique {files : List (SourceKind × Path)} {y y' : σ}
    (h : Reads answer files x sources y) (h' : Reads answer files x sources' y') :
  sources = sources' ∧ y = y'
  := by
  have hrun := run_readSources_iff.mpr h
  rw [run_readSources_iff.mpr h'] at hrun
  cases hrun
  exact ⟨rfl, rfl⟩

theorem Places.unique (h : Places answer s x directory z) (h' : Places answer s x directory' z') :
  directory = directory' ∧ z = z'
  := by
  cases h with
  | given h =>
    cases h' with
    | given h' => exact ⟨Option.some.inj (h.symm.trans h'), rfl⟩
    | made h' => cases h.symm.trans h'
  | made h hmade =>
    cases h' with
    | given h' => cases h.symm.trans h'
    | made _ hmade' =>
      cases hmade.symm.trans hmade'
      exact ⟨rfl, rfl⟩

theorem Placed.unique (h : Placed answer s x c sources directory z)
    (h' : Placed answer s x c' sources' directory' z') :
  c = c' ∧ sources = sources' ∧ directory = directory' ∧ z = z'
  := by
  obtain ⟨hreads, -, hconfig, hplace⟩ := h
  obtain ⟨hreads', -, hconfig', hplace'⟩ := h'
  obtain ⟨rfl, rfl⟩ := hreads.unique hreads'
  obtain ⟨rfl, rfl⟩ := hplace.unique hplace'
  exact ⟨Except.ok.inj (hconfig.symm.trans hconfig'), rfl, rfl, rfl⟩

/-- There is only one way in which a request can end. -/
theorem Concludes.unique (h : Concludes answer s x c result w)
    (h' : Concludes answer s x c' result' w') :
  c = c' ∧ result = result' ∧ w = w'
  := by
  obtain ⟨hplaced, hrequest⟩ := h
  obtain ⟨hplaced', hrequest'⟩ := h'
  obtain ⟨rfl, rfl, rfl, rfl⟩ := hplaced.unique hplaced'
  cases hrequest.symm.trans hrequest'
  exact ⟨rfl, rfl, rfl⟩

/-- A run whose request is broken off comes to no end of it. -/
theorem Placed.not_concludes {halt : Halt} (h : Placed answer s x c sources directory z)
    (hrequest : ((request s c sources directory).run answer z).1 = .error halt) :
  ¬ Concludes answer s x c' result w
  := by
  rintro ⟨hplaced', hrequest'⟩
  obtain ⟨rfl, rfl, rfl, rfl⟩ := h.unique hplaced'
  rw [hrequest'] at hrequest
  cases hrequest

theorem accomplishes_iff {r : Report} :
  Accomplishes isUnicode answer s x r
    ↔ ∃ c w, Concludes answer s x c (.ok r) w ∧ Finishes answer s c w r ∧ Reportable isUnicode s r
  := by
  constructor
  · rintro ⟨hreads, hsources, hconfig, hplace, hrequest, hfinishes, hreportable⟩
    exact ⟨_, _, ⟨⟨hreads, hsources, hconfig, hplace⟩, hrequest⟩, hfinishes, hreportable⟩
  · rintro ⟨c, w, ⟨⟨hreads, hsources, hconfig, hplace⟩, hrequest⟩, hfinishes, hreportable⟩
    exact ⟨hreads, hsources, hconfig, hplace, hrequest, hfinishes, hreportable⟩

end Concludes

/-- How a run proceeds to its end, with a transcript of what it does: unless it is refused before,
it handles its request in a directory and concludes, with nothing but asides before and behind, of
which the last can still break it off. -/
inductive Proceeds (isUnicode : Path → Bool) (answer : σ → (action : Action) → action.Answer × σ)
    (s : Settings) (x : σ) :
    Except Halt Unit → List ((action : Action) × action.Answer) → Prop where
  | refused {halt : Halt} (hnone : ∀ c result w, ¬ Concludes answer s x c result w) :
      Proceeds isUnicode answer s x (.error halt) []
  | placed {c : Config} {sources : List SourceFile} {directory : Path} {z : σ}
      (h : Placed answer s x c sources directory z) :
      Proceeds isUnicode answer s x ((runIn isUnicode s c sources directory).run answer z).1
        ((runIn isUnicode s c sources directory).transcript answer z)
  | before {result : Except Halt Unit}
      {asides entries : List ((action : Action) × action.Answer)}
      (hasides : ∀ entry ∈ asides, entry.1.IsAside)
      (h : Proceeds isUnicode answer s x result entries) :
      Proceeds isUnicode answer s x result (asides ++ entries)
  | behind {result result' : Except Halt Unit}
      {asides entries : List ((action : Action) × action.Answer)}
      (h : Proceeds isUnicode answer s x result entries)
      (hasides : ∀ entry ∈ asides, entry.1.IsAside)
      (hresult : result' = result ∨ result' = .error .panicked) :
      Proceeds isUnicode answer s x result' (entries ++ asides)

section Proceeds

variable {x y z : σ}

theorem Placed.fits (h : Placed answer s x c sources directory z) :
  c.Fits
  := by
  obtain ⟨-, -, hconfig, -⟩ := h
  exact Settings.fits_of_config hconfig

theorem proceeds_runPlaced (hreads : Reads answer s.sources x sources y) (hsources : sources ≠ [])
    (hconfig : s.config = .ok c) :
  Proceeds isUnicode answer s x ((runPlaced isUnicode s c sources).run answer y).1
    ((runPlaced isUnicode s c sources).transcript answer y)
  := by
  unfold runPlaced
  split
  · next directory hplace => exact .placed ⟨hreads, hsources, hconfig, .given hplace⟩
  · next hplace =>
    have hasides (made : Except OsError Path) :
        ∀ entry ∈ [(⟨.makeTemporary, made⟩ : (action : Action) × action.Answer)],
          entry.1.IsAside :=
      List.forall_mem_singleton.mpr trivial
    rcases hmade : answer y .makeTemporary with ⟨cause | directory, z⟩
    · rw [runInTemporary_eq, Dialogue.run, Dialogue.transcript, hmade]
      refine .before (hasides (.error cause)) (.refused ?_)
      rintro _ _ _ ⟨⟨hreads', -, -, hplace'⟩, -⟩
      obtain ⟨-, rfl⟩ := hreads.unique hreads'
      cases hplace' with
      | given hgiven => cases hplace.symm.trans hgiven
      | made _ hmade' => cases hmade.symm.trans hmade'
    · have hleave (result : Except Halt Unit) (w : σ) :
          ∀ entry ∈ (leave s directory result).transcript answer w, entry.1.IsAside :=
        (only_leave (fun _ => trivial) (fun _ => trivial) s directory result).transcript answer w
      have hplaced : Placed answer s x c sources directory z :=
        ⟨hreads, hsources, hconfig, .made hplace hmade⟩
      rw [run_runInTemporary hmade rfl, transcript_runInTemporary hmade rfl]
      exact .before (hasides (.ok directory))
        (.behind (.placed hplaced) (hleave _ _) (run_leave s directory _ _))

theorem proceeds_proceed (hreads : Reads answer s.sources x sources y) :
  Proceeds isUnicode answer s x ((proceed isUnicode s sources).run answer y).1
    ((proceed isUnicode s sources).transcript answer y)
  := by
  unfold proceed
  split
  · next hempty =>
    apply Proceeds.refused
    rintro _ _ _ ⟨⟨hreads', hsources', -, -⟩, -⟩
    obtain ⟨rfl, -⟩ := hreads.unique hreads'
    exact hsources' (List.isEmpty_iff.mp hempty)
  · next hempty =>
    split
    · next e hconfig =>
      apply Proceeds.refused
      rintro _ _ _ ⟨⟨-, -, hconfig', -⟩, -⟩
      cases hconfig.symm.trans hconfig'
    · next c hconfig =>
      exact proceeds_runPlaced hreads (fun h => hempty (List.isEmpty_iff.mpr h)) hconfig

variable (isUnicode answer) in
theorem proceeds_run (s : Settings) (x : σ) :
  Proceeds isUnicode answer s x ((run isUnicode s).run answer x).1
    ((run isUnicode s).transcript answer x)
  := by
  have hasides : ∀ entry ∈ (readSources s.sources).transcript answer x, entry.1.IsAside :=
    (only_readSources (fun _ => trivial) s.sources).transcript answer x
  unfold run
  rcases hread : (readSources s.sources).run answer x with ⟨halt | sources, y⟩
  · have hhalt := congrArg Prod.fst hread
    rw [Dialogue.run_andThen_of_error hhalt, Dialogue.transcript_andThen_of_error hhalt,
      ← List.append_nil (Dialogue.transcript answer _ x)]
    refine .before hasides (.refused ?_)
    rintro _ _ _ ⟨⟨hreads, -, -, -⟩, -⟩
    cases hread.symm.trans (run_readSources_iff.mpr hreads)
  · have hsources := congrArg Prod.fst hread
    rw [Dialogue.run_andThen_of_ok hsources, Dialogue.transcript_andThen_of_ok hsources, hread]
    exact .before hasides (proceeds_proceed (run_readSources_iff.mp hread))

end Proceeds

/-- What a run that has handled its request comes to, and what it is then to print on the standard
output; otherwise it prints nothing. -/
inductive Settles (isUnicode : Path → Bool) (answer : σ → (action : Action) → action.Answer × σ)
    (s : Settings) (x : σ) : Except Halt Unit → List String → Prop where
  | refused {halt : Halt} (hnone : ∀ c result w, ¬ Concludes answer s x c result w) :
      Settles isUnicode answer s x (.error halt) []
  | concluded {c : Config} {result : Except RequestError Report} {w : σ}
      (h : Concludes answer s x c result w)
      (hnames : ∃ artifact, ∀ r, result = .ok r → Compile.Names artifact r.compilation) :
      Settles isUnicode answer s x ((conclude isUnicode s c result).run answer w).1
        (Job.picked answer Action.printed? (conclude isUnicode s c result) w)
  | broken {result : Except Halt Unit} {printed : List String}
      (h : Settles isUnicode answer s x result printed) :
      Settles isUnicode answer s x (.error .panicked) printed

section Settles

variable {x : σ} {result : Except Halt Unit}

/-- A run in a directory prints what is printed after its request. -/
theorem Placed.settles {z : σ} (h : Placed answer s x c sources directory z) :
  Settles isUnicode answer s x ((runIn isUnicode s c sources directory).run answer z).1
    (Job.picked answer Action.printed? (runIn isUnicode s c sources directory) z)
  := by
  have hquiet : Job.picked answer Action.printed? (request s c sources directory) z = [] :=
    printed_request h.fits z
  rw [runIn_eq]
  rcases hrequest : (request s c sources directory).run answer z with ⟨halt | result, w⟩
  · have hhalt := congrArg Prod.fst hrequest
    rw [Dialogue.run_andThen_of_error hhalt, Job.picked_andThen_of_error answer _ hhalt, hquiet]
    exact .refused fun _ _ _ => h.not_concludes hhalt
  · have hresult := congrArg Prod.fst hrequest
    rw [Dialogue.run_andThen_of_ok hresult, Job.picked_andThen_of_ok answer _ hresult, hquiet,
      List.nil_append, hrequest]
    have hreports : (request s c sources directory).Always fun result =>
        ∀ a, result = .ok a → Request.Reports c directory a :=
      showProgress_always (Request.always_reports h.fits (.looking s.id directory c) sources)
    exact .concluded ⟨h, hrequest⟩ ⟨_, hreports.run_fst answer z result hresult⟩

/-- What is printed on the standard output is printed after the request. -/
theorem Proceeds.settles {entries : List ((action : Action) × action.Answer)}
    (h : Proceeds isUnicode answer s x result entries) :
  Settles isUnicode answer s x result
    (entries.filterMap fun entry => Action.printed? entry.1 entry.2)
  := by
  have hquiet {asides : List ((action : Action) × action.Answer)}
      (hasides : ∀ entry ∈ asides, entry.1.IsAside) :
      asides.filterMap (fun entry => Action.printed? entry.1 entry.2) = [] :=
    List.filterMap_eq_nil_iff.mpr fun entry hentry => (hasides entry hentry).printsNothing entry.2
  induction h with
  | refused hnone => exact .refused hnone
  | placed h => exact h.settles
  | before hasides _ ih =>
    rw [List.filterMap_append, hquiet hasides]
    exact ih
  | behind _ hasides hresult ih =>
    rw [List.filterMap_append, hquiet hasides, List.append_nil]
    rcases hresult with rfl | rfl
    · exact ih
    · exact ih.broken

variable (isUnicode answer) in
theorem settles_run (s : Settings) (x : σ) :
  Settles isUnicode answer s x ((run isUnicode s).run answer x).1
    (Job.picked answer Action.printed? (run isUnicode s) x)
  := (proceeds_run isUnicode answer s x).settles

/-- A run that settles so ends accordingly. -/
theorem Settles.ends {printed : List String} (h : Settles isUnicode answer s x result printed) :
  Ends s (Accomplishes isUnicode answer s x) result printed
  := by
  induction h with
  | @refused halt hnone =>
    cases halt with
    | failed failure =>
      refine .failed (fun r h => ?_) fun _ => rfl
      obtain ⟨c, w, hconcludes, -⟩ := accomplishes_iff.mp h
      exact hnone c _ w hconcludes
    | panicked => exact .panicked fun _ _ => rfl
  | concluded hconcludes hnames =>
    obtain ⟨artifact, hnames⟩ := hnames
    apply (ends_conclude hnames _).congr
    intro r
    rw [accomplishes_iff]
    constructor
    · rintro ⟨rfl, hfinishes⟩
      exact ⟨_, _, hconcludes, hfinishes⟩
    · rintro ⟨c, w, hother, hfinishes⟩
      obtain ⟨rfl, rfl, rfl⟩ := hconcludes.unique hother
      exact ⟨rfl, hfinishes⟩
  | broken _ ih => exact ih.break_off

end Settles

variable (isUnicode answer) in
theorem ends_run (s : Settings) (x : σ) :
  Ends s (Accomplishes isUnicode answer s x) ((run isUnicode s).run answer x).1
    (Job.picked answer Action.printed? (run isUnicode s) x)
  := (settles_run isUnicode answer s x).ends

end CommandLine

end Bindery
