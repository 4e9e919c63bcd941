import Bindery.Proofs.CommandLine.Outcome
import Bindery.Proofs.CommandLine.Remaining

/-!
# Structured results

Once it has started the compiler, a request leads to a report (`commits_process`).  An invocation
that is asked for a structured result prints that report and nothing else if the artifact is to stay
in its place, or if it was copied, as long as the report can be written.  If the artifact was to be
copied but there is none, or copying failed, the invocation prints nothing (`discloses_runProgram`),
although there is a report (`report_withheld`).
-/

namespace Bindery

open Dialogue (Only only_done only_question)

/-! ### Questions that commit a dialogue -/

namespace Dialogue

variable {Q : Type} {A : Q → Type} {α β σ : Type} {S : Q → Prop}

/-- Once the dialogue has asked a question that satisfies `S`, its value satisfies `P`, whatever the
answers are. -/
def Commits (S : Q → Prop) (P : α → Prop) : Dialogue Q A α → Prop
  | done _ => True
  | ask q next => ∀ a, (S q → (next a).Always P) ∧ (next a).Commits S P

theorem commits_of_always {P : α → Prop} {x : Dialogue Q A α} (h : x.Always P) :
  x.Commits S P
  := by
  induction x with
  | done a => trivial
  | ask q next ih => exact fun a => ⟨fun _ => h a, ih a (h a)⟩

/-- Before any question that commits it, a dialogue is as good as its value. -/
theorem Only.commits_bind_of_always {T : α → Prop} {P : β → Prop} {x : Dialogue Q A α}
    {f : α → Dialogue Q A β} (h : x.Only fun q => ¬ S q) (hT : x.Always T)
    (hf : ∀ a, T a → (f a).Commits S P) :
  (x.bind f).Commits S P
  := by
  induction x with
  | done a => exact hf a hT
  | ask q next ih => exact fun a => ⟨fun hq => absurd hq h.1, ih a (h.2 a) (hT a)⟩

theorem Only.commits_bind {P : β → Prop} {x : Dialogue Q A α} {f : α → Dialogue Q A β}
    (h : x.Only fun q => ¬ S q) (hf : ∀ a, (f a).Commits S P) :
  (x.bind f).Commits S P
  := h.commits_bind_of_always (always_of_forall (P := fun _ => True) (fun _ => trivial) x)
    fun a _ => hf a

theorem Commits.bind {T : α → Prop} {P : β → Prop} {x : Dialogue Q A α} {f : α → Dialogue Q A β}
    (h : x.Commits S T) (hT : ∀ a, T a → (f a).Always P) (hf : ∀ a, (f a).Commits S P) :
  (x.bind f).Commits S P
  := by
  induction x with
  | done a => exact hf a
  | ask q next ih =>
    exact fun a => ⟨fun hq => always_bind.mpr (((h a).1 hq).mono hT), ih a (h a).2⟩

theorem Commits.run {P : α → Prop} {x : Dialogue Q A α} (h : x.Commits S P)
    {answer : σ → (q : Q) → A q × σ} {s : σ} {entry : (q : Q) × A q}
    (hentry : entry ∈ x.transcript answer s) (hS : S entry.1) :
  P (x.run answer s).1
  := by
  induction x generalizing s with
  | done a => cases hentry
  | ask q next ih =>
    rcases List.mem_cons.mp hentry with rfl | hlater
    · exact ((h _).1 hS).run_fst answer _
    · exact ih _ (h _).2 hlater

end Dialogue

/-! ### Starting the compiler -/

/-- The action starts the compiler, in a pass over some document. -/
def Action.StartsCompiler (action : Action) : Prop :=
  ∃ (t : Compile.Task) (log : Handle), action = .launch (t.invocation log)

theorem not_startsCompiler_of_not_isLate {action : Action} (h : ¬ Request.IsLate action) :
  ¬ action.StartsCompiler
  := by
  rintro ⟨t, log, rfl⟩
  exact h trivial

/-- What a program that looks packages up prints is thrown away. -/
theorem not_startsCompiler_lookup (c : LookupConfig) (name : String) :
  ¬ Action.StartsCompiler (.launch (c.invocation name))
  := by
  rintro ⟨t, log, heq⟩
  cases congrArg Invocation.output (Action.launch.inj heq)

namespace Request

variable {context : Context} {c : Config} {sources : List SourceFile}

/-- The request leads to a report. -/
def IsReport (result : Except RequestError Report) : Prop :=
  ∃ r, result = .ok r

theorem commits_compileMerged (w : Workspace) (outcomes : List Outcome) (document : Document) :
  (compileMerged c w outcomes document).Commits Action.StartsCompiler IsReport
  := by
  have hwrite : (w.writeMerged c.mergedName document.render).Only fun action =>
      ¬ action.StartsCompiler := by
    refine Only.bind (only_question (not_startsCompiler_of_not_isLate not_false)) ?_
    rintro (cause | _) <;> exact only_done _
  refine hwrite.commits_bind ?_
  rintro (e | merged)
  · trivial
  · -- From here on nothing can stop the request.
    apply Dialogue.commits_of_always
    refine Dialogue.always_bind.mpr (Dialogue.always_of_forall (fun _ => ?_) _)
    refine Dialogue.always_bind.mpr (Dialogue.always_of_forall (fun compilation => ?_) _)
    refine Dialogue.always_bind.mpr (Dialogue.always_of_forall (fun _ => ?_) _)
    exact ⟨_, rfl⟩

section Looking

variable (hlook : ∀ name, (context.isAvailable name).Only fun action => ¬ action.StartsCompiler)

include hlook

theorem commits_mergeExtracted (w : Workspace) (extractions : List Extraction) :
  (mergeExtracted context c w extractions).Commits Action.StartsCompiler IsReport
  := by
  unfold mergeExtracted
  dsimp only
  split
  · trivial
  · refine (only_merge hlook _).commits_bind ?_
    rintro (malformed | document)
    · trivial
    · exact commits_compileMerged w _ document

theorem commits_finishing (w : Workspace) (total : Nat) :
  (finishing context c total (.ok (w, (inOrder sources).map (keptSource w)))).Commits
    Action.StartsCompiler IsReport
  := by
  have hextract : (extractAll c w total 1 ((inOrder sources).map (keptSource w))).Only fun action =>
      ¬ action.StartsCompiler :=
    (mild_extractAll total 1 (inOrder sources)).mono fun _ h =>
      not_startsCompiler_of_not_isLate (not_isLate_of_mild (fun _ h => h) h)
  exact hextract.commits_bind fun _ => commits_mergeExtracted hlook w _

theorem commits_process :
  (process context c sources).Commits Action.StartsCompiler IsReport
  := by
  have hkeeping : (keeping context c sources).Always fun result =>
      ∀ w kept, result = .ok (w, kept) → kept = (inOrder sources).map (keptSource w) := by
    apply Dialogue.always_bind.mpr
    apply Dialogue.always_of_forall
    rintro (e | w)
    · rintro w kept ⟨⟩
    · apply Dialogue.always_bind.mpr
      apply Dialogue.always_of_forall
      intro _
      apply Dialogue.always_bind.mpr
      apply (keeping_keepAll w (inOrder sources)).mono
      intro result hkept
      cases hkept with
      | unkept => rintro w kept ⟨⟩
      | kept =>
        rintro w kept ⟨⟩
        rfl
  have hquiet : (keeping context c sources).Only fun action => ¬ action.StartsCompiler :=
    (not_isLate_keeping context c sources).mono fun _ => not_startsCompiler_of_not_isLate
  rw [process_eq]
  refine hquiet.commits_bind_of_always hkeeping ?_
  rintro (e | ⟨w, kept⟩) hkept
  · trivial
  · rw [hkept w kept rfl]
    exact commits_finishing hlook w _

end Looking

end Request

namespace CommandLine

open Request (IsReport)

variable {σ : Type} {isUnicode : Path → Bool}
  {answer : σ → (action : Action) → action.Answer × σ} {s : Settings} {c : Config} {x : σ}

/-- For a structured result no progress is shown, so that nothing breaks a request off. -/
theorem commits_request (hjson : s.json = true) (c : Config) (sources : List SourceFile)
    (directory : Path) :
  (request s c sources directory).Commits Action.StartsCompiler fun result =>
    ∃ r, result = .ok (.ok r)
  := by
  have hlook (name : String) : ((Context.looking s.id directory c).isAvailable name).Only
      fun action => ¬ action.StartsCompiler :=
    Request.only_isAvailable (not_startsCompiler_lookup c.lookup name)
  have hshown : s.showsProgress = false := by rw [Settings.showsProgress, hjson, Bool.not_true,
    Bool.and_false]
  have hprocess : (process (.looking s.id directory c) c sources).Commits Action.StartsCompiler
      IsReport := Request.commits_process hlook
  rw [request, showProgress, hshown, if_neg Bool.false_ne_true]
  apply hprocess.bind
  · rintro _ ⟨r, rfl⟩
    exact ⟨r, rfl⟩
  · exact fun _ => trivial

theorem not_startsCompiler_of_isAside {action : Action} (h : action.IsAside) :
  ¬ action.StartsCompiler
  := by
  rintro ⟨t, log, rfl⟩
  exact h

/-- A run in a directory that starts the compiler comes to a report. -/
theorem Placed.exists_report {sources : List SourceFile} {directory : Path} {z : σ}
    (h : Placed answer s x c sources directory z) (hjson : s.json = true)
    {entry : (action : Action) × action.Answer}
    (hentry : entry ∈ (runIn isUnicode s c sources directory).transcript answer z)
    (hstarts : entry.1.StartsCompiler) :
  ∃ r w, Concludes answer s x c (.ok r) w
  := by
  have hconclude (result : Except RequestError Report) :
      (conclude isUnicode s c result).Only fun action => ¬ Request.IsLate action :=
    only_conclude isUnicode (fun _ => not_false) (fun _ _ => not_false) (fun _ _ => not_false)
      (fun _ => not_false) (fun _ => not_false) s c result
  have hrequested : entry ∈ (request s c sources directory).transcript answer z := by
    rw [runIn_eq] at hentry
    rcases hrequest : ((request s c sources directory).run answer z).1 with halt | result
    · rwa [Dialogue.transcript_andThen_of_error hrequest] at hentry
    · rw [Dialogue.transcript_andThen_of_ok hrequest] at hentry
      refine (List.mem_append.mp hentry).resolve_right fun hconcluded => ?_
      have hlate := (hconclude result).transcript answer _ entry hconcluded
      exact not_startsCompiler_of_not_isLate hlate hstarts
  obtain ⟨r, hr⟩ := (commits_request hjson c sources directory).run hrequested hstarts
  exact ⟨r, _, h, Prod.ext hr rfl⟩

/-- A run that starts the compiler comes to a report. -/
theorem Proceeds.exists_report {result : Except Halt Unit}
    {entries : List ((action : Action) × action.Answer)}
    (h : Proceeds isUnicode answer s x result entries) (hjson : s.json = true)
    {entry : (action : Action) × action.Answer} (hentry : entry ∈ entries)
    (hstarts : entry.1.StartsCompiler) :
  ∃ c r w, Concludes answer s x c (.ok r) w
  := by
  induction h with
  | refused => cases hentry
  | placed h =>
    obtain ⟨r, w, hconcludes⟩ := h.exists_report hjson hentry hstarts
    exact ⟨_, r, w, hconcludes⟩
  | before hasides _ ih =>
    rcases List.mem_append.mp hentry with haside | hentry
    · exact absurd hstarts (not_startsCompiler_of_isAside (hasides entry haside))
    · exact ih hentry
  | behind _ hasides _ ih =>
    rcases List.mem_append.mp hentry with hentry | haside
    · exact ih hentry
    · exact absurd hstarts (not_startsCompiler_of_isAside (hasides entry haside))

/-! ### What is printed -/

/-- The structured result that is printed. -/
def structured (r : Report) : String :=
  r.toJson.pretty ++ "\n"

theorem printed_reportResult (hjson : s.json = true) {r : Report}
    (hunicode : ∀ path ∈ r.paths, isUnicode path = true) (closing : List String) (x : σ) :
  Job.picked answer Action.printed? (reportResult isUnicode s r closing) x = [structured r]
  := by
  unfold reportResult
  rw [if_pos hjson, serialize_of_unicode hunicode]
  rfl

/-- A report that cannot be written is not printed, which fails. -/
theorem reportResult_of_not_unicode (hjson : s.json = true) {r : Report}
    (h : ¬ ∀ path ∈ r.paths, isUnicode path = true) (closing : List String) :
  ∃ failure, reportResult isUnicode s r closing = .done (.error (.failed failure))
  := by
  unfold reportResult
  rw [if_pos hjson, serialize_of_not_unicode h]
  exact ⟨_, rfl⟩

/-- A report is printed whatever it says if the artifact is to stay in its place. -/
theorem printed_conclude_of_kept (hjson : s.json = true) (houtput : s.output = none) {r : Report}
    (hunicode : ∀ path ∈ r.paths, isUnicode path = true) (w : σ) :
  Job.picked answer Action.printed? (conclude isUnicode s c (.ok r)) w = [structured r]
  := by
  have hprinted : Job.picked answer Action.printed? (reportResult isUnicode s r []) w
      = [structured r] := printed_reportResult hjson hunicode [] w
  unfold conclude
  rw [houtput]
  dsimp only
  rcases hresult : ((reportResult isUnicode s r []).run answer w).1 with halt | ⟨⟨⟩⟩
  · rw [Job.picked_andThen_of_error answer _ hresult, hprinted]
  · rw [Job.picked_andThen_of_ok answer _ hresult, hprinted]
    cases r.result with
    | error e => rfl
    | ok artifact =>
      rw [hjson]
      rfl

theorem printed_conclude_of_finishes (hjson : s.json = true) {r : Report} {w : σ}
    (h : Finishes answer s c w r) (hunicode : ∀ path ∈ r.paths, isUnicode path = true) :
  Job.picked answer Action.printed? (conclude isUnicode s c (.ok r)) w = [structured r]
  := by
  cases houtput : s.output with
  | none => exact printed_conclude_of_kept hjson houtput hunicode w
  | some output =>
    rw [printed_conclude_of_copied houtput]
    rcases run_deliverResult houtput w with ⟨-, hdelivered⟩ | ⟨hnone, -⟩
    · rw [hdelivered]
      exact printed_reportResult hjson hunicode _ _
    · exact absurd h hnone

/-- A report is withheld if there is no artifact to copy, or copying it fails. -/
theorem conclude_of_not_finishes (houtput : s.output ≠ none) {r : Report} {w : σ}
    (h : ¬ Finishes answer s c w r) :
  (∃ halt, ((conclude isUnicode s c (.ok r)).run answer w).1 = .error halt)
    ∧ Job.picked answer Action.printed? (conclude isUnicode s c (.ok r)) w = []
  := by
  obtain ⟨output, houtput⟩ := Option.ne_none_iff_exists'.mp houtput
  rw [run_conclude_of_copied houtput, printed_conclude_of_copied houtput]
  rcases run_deliverResult houtput w with ⟨hfinishes, -⟩ | ⟨-, e, hdelivered⟩
  · exact absurd hfinishes h
  · rw [hdelivered]
    exact ⟨⟨_, rfl⟩, rfl⟩

/-- A report that cannot be written is withheld. -/
theorem conclude_of_not_unicode (hjson : s.json = true) {r : Report}
    (h : ¬ ∀ path ∈ r.paths, isUnicode path = true) (w : σ) :
  (∃ halt, ((conclude isUnicode s c (.ok r)).run answer w).1 = .error halt)
    ∧ Job.picked answer Action.printed? (conclude isUnicode s c (.ok r)) w = []
  := by
  cases houtput : s.output with
  | none =>
    obtain ⟨failure, hfailed⟩ := reportResult_of_not_unicode hjson h []
    unfold conclude
    rw [houtput]
    dsimp only
    rw [hfailed]
    exact ⟨⟨_, rfl⟩, rfl⟩
  | some output =>
    rw [run_conclude_of_copied houtput, printed_conclude_of_copied houtput]
    obtain ⟨failure, hfailed⟩ := reportResult_of_not_unicode hjson h [summary r output]
    rcases run_deliverResult houtput w with ⟨-, hdelivered⟩ | ⟨-, e, hdelivered⟩
    · rw [hdelivered]
      dsimp only
      rw [hfailed]
      exact ⟨⟨_, rfl⟩, rfl⟩
    · rw [hdelivered]
      exact ⟨⟨_, rfl⟩, rfl⟩

/-- A request that has led to no report fails, and prints nothing. -/
theorem conclude_of_error (e : RequestError) (w : σ) :
  (∃ halt, ((conclude isUnicode s c (.error e)).run answer w).1 = .error halt)
    ∧ Job.picked answer Action.printed? (conclude isUnicode s c (.error e)) w = []
  := by
  unfold conclude
  cases s.output with
  | none => exact ⟨⟨_, rfl⟩, rfl⟩
  | some output => exact ⟨⟨_, rfl⟩, rfl⟩

/-! ### Whole runs -/

section Settles

variable {result : Except Halt Unit} {printed : List String}
  (h : Settles isUnicode answer s x result printed)

include h

/-- A run that concludes with a report comes to what it then comes to, unless it is broken off. -/
theorem Settles.of_concludes {r : Report} {w : σ} (hconcludes : Concludes answer s x c (.ok r) w) :
  (result = ((conclude isUnicode s c (.ok r)).run answer w).1 ∨ result = .error .panicked)
    ∧ printed = Job.picked answer Action.printed? (conclude isUnicode s c (.ok r)) w
  := by
  induction h with
  | refused hnone => exact absurd hconcludes (hnone _ _ _)
  | concluded hother _ =>
    obtain ⟨rfl, rfl, rfl⟩ := hother.unique hconcludes
    exact ⟨Or.inl rfl, rfl⟩
  | broken _ ih => exact ⟨Or.inr rfl, ih.2⟩

/-- A run that withholds its report fails. -/
theorem Settles.of_withheld {r : Report} {w : σ} (hconcludes : Concludes answer s x c (.ok r) w)
    (hwithheld : (∃ halt, ((conclude isUnicode s c (.ok r)).run answer w).1 = .error halt)
      ∧ Job.picked answer Action.printed? (conclude isUnicode s c (.ok r)) w = []) :
  (∃ halt, result = .error halt) ∧ printed = []
  := by
  obtain ⟨⟨halt, hhalt⟩, hnothing⟩ := hwithheld
  obtain ⟨hresult, hprinted⟩ := h.of_concludes hconcludes
  use hresult.elim (fun heq => ⟨halt, heq.trans hhalt⟩) fun heq => ⟨_, heq⟩
  exact hprinted.trans hnothing

theorem Settles.of_no_report (hnone : ∀ c r w, ¬ Concludes answer s x c (.ok r) w) :
  (∃ halt, result = .error halt) ∧ printed = []
  := by
  induction h with
  | refused => exact ⟨⟨_, rfl⟩, rfl⟩
  | @concluded c result w hconcludes _ =>
    cases result with
    | error e => exact conclude_of_error e w
    | ok r => exact absurd hconcludes (hnone _ _ _)
  | broken _ ih => exact ⟨⟨_, rfl⟩, ih.2⟩

end Settles

/-- An invocation fails: with a status of one, or of its own if something cannot be printed. -/
def Fails (answer : σ → (action : Action) → action.Answer × σ) (job : Job Nat) (x : σ) : Prop :=
  (job.run answer x).1 = 1 ∨ (job.run answer x).1 = 101 ∧ Job.Falters answer job x

/-- What an invocation that is asked for a structured result discloses on the standard output. -/
structure Discloses (isUnicode : Path → Bool) (answer : σ → (action : Action) → action.Answer × σ)
    (s : Settings) (job : Job Nat) (x : σ) : Prop where
  /-- A run that starts the compiler comes to a report. -/
  started : ∀ entry ∈ job.transcript answer x, entry.1.StartsCompiler →
    ∃ c r w, Concludes answer s x c (.ok r) w
  /-- The report is printed, and nothing else, if the artifact is to stay in its place or was
  copied. -/
  shown : ∀ c r w, Concludes answer s x c (.ok r) w →
    (∀ path ∈ r.paths, isUnicode path = true) → s.output = none ∨ Finishes answer s c w r →
    Job.picked answer Action.printed? job x = [structured r]
  /-- Otherwise the report is withheld. -/
  withheld : ∀ c r w, Concludes answer s x c (.ok r) w → s.output ≠ none →
    ¬ Finishes answer s c w r → Fails answer job x ∧ Job.picked answer Action.printed? job x = []
  /-- A report with a path that is not Unicode cannot be written. -/
  unwritten : ∀ c r w, Concludes answer s x c (.ok r) w →
    (¬ ∀ path ∈ r.paths, isUnicode path = true) →
    Fails answer job x ∧ Job.picked answer Action.printed? job x = []
  /-- A run that comes to no report prints nothing. -/
  nothing : (∀ c r w, ¬ Concludes answer s x c (.ok r) w) →
    Fails answer job x ∧ Job.picked answer Action.printed? job x = []

/-- A run that halts is closed as a failure. -/
theorem fails_close {job : Job (Except Halt Unit)} (hsensitive : Job.Sensitive answer job x)
    (h : ∃ halt, (job.run answer x).1 = .error halt) :
  Fails answer (job.bind close) x
  := by
  obtain ⟨failure | _, hresult⟩ := h
  · left
    rw [Dialogue.run_bind, hresult]
    rfl
  · right
    rw [Dialogue.run_bind, Job.falters_bind, hresult]
    exact ⟨rfl, Or.inl (hsensitive.mp hresult)⟩

/-- Every invocation with a valid command line that asks for a structured result discloses it so,
whatever its actions are answered. -/
theorem discloses_runProgram (isUnicode : Path → Bool)
    (answer : σ → (action : Action) → action.Answer × σ) {arguments : List String}
    {environment : String → Option String} {given : Given}
    (hgiven : Given.ofArguments arguments environment = .ok given)
    (hjson : (Settings.ofGiven given).json = true) (x : σ) :
  Discloses isUnicode answer (Settings.ofGiven given) (runProgram arguments environment isUnicode) x
  := by
  rw [runProgram_eq isUnicode hgiven]
  generalize Settings.ofGiven given = s at hjson
  have hprinted : Job.picked answer Action.printed? ((run isUnicode s).bind close) x
      = Job.picked answer Action.printed? (run isUnicode s) x :=
    picked_close Action.printed? fun _ _ => rfl
  have hsettles := settles_run isUnicode answer s x
  have hfailed {printed : List String}
      (h : (∃ halt, ((run isUnicode s).run answer x).1 = .error halt) ∧ printed = []) :
      Fails answer ((run isUnicode s).bind close) x ∧ printed = [] :=
    ⟨fails_close (sensitive_run answer isUnicode s x) h.1, h.2⟩
  constructor
  · intro entry hentry hstarts
    rw [Dialogue.transcript_bind] at hentry
    rcases List.mem_append.mp hentry with hentry | hclosing
    · exact (proceeds_run isUnicode answer s x).exists_report hjson hentry hstarts
    · have hclose : (close ((run isUnicode s).run answer x).1).Only
          fun action => ¬ Request.IsLate action := only_close (fun _ => not_false) _
      have hlate := hclose.transcript answer _ entry hclosing
      exact absurd hstarts (not_startsCompiler_of_not_isLate hlate)
  · intro c r w hconcludes hunicode hshown
    rw [hprinted, (hsettles.of_concludes hconcludes).2]
    rcases hshown with houtput | hfinishes
    · exact printed_conclude_of_kept hjson houtput hunicode w
    · exact printed_conclude_of_finishes hjson hfinishes hunicode
  · intro c r w hconcludes houtput hnone
    rw [hprinted]
    exact hfailed (hsettles.of_withheld hconcludes (conclude_of_not_finishes houtput hnone))
  · intro c r w hconcludes hunwritten
    rw [hprinted]
    exact hfailed (hsettles.of_withheld hconcludes (conclude_of_not_unicode hjson hunwritten w))
  · intro hnone
    rw [hprinted]
    exact hfailed (hsettles.of_no_report hnone)

/-- A compiler that only fails. -/
def failing : Programs :=
  fun _ _ T => (.ok (.exited 1), T)

/-- A pass over the merged document in a temporary directory. -/
def temporaryTask : Compile.Task where
  config := {}
  directory := ⟨"/tmp/texfuse-XXXXXX"⟩
  fileName := "merged.tex"
  announces := false

/-- The report of a failed compilation is printed if nothing is to be copied. -/
theorem discloses_runProgram_failed :
  let arguments := ["--json", "--latex", "a.tex"]
  let given : Given := [(.json, "true"), (.latex, "a.tex")]
  let answer := Machine.answer { programs := failing }
  let job := runProgram arguments fun _ => none
  Given.ofArguments arguments (fun _ => none) = .ok given
    ∧ Discloses (fun _ => true) answer (Settings.ofGiven given) job desk
    ∧ (job.run answer desk).1 = 1
    ∧ ∃ c r w, Concludes answer (Settings.ofGiven given) desk c (.ok r) w
      ∧ Job.picked answer Action.printed? job desk = [structured r]
  := by
  intro arguments given answer job
  have hgiven : Given.ofArguments arguments (fun _ => none) = .ok given := by decide +kernel
  have hjson : (Settings.ofGiven given).json = true := by decide +kernel
  have hdiscloses : Discloses (fun _ => true) answer (Settings.ofGiven given) job desk :=
    discloses_runProgram (fun _ => true) answer hgiven hjson desk
  have hstarted : ∃ entry ∈ job.transcript answer desk,
      entry.1 = .launch (temporaryTask.invocation 3) := by decide +kernel
  have hstatus : (job.run answer desk).1 = 1 := by decide +kernel
  obtain ⟨entry, hentry, hlaunch⟩ := hstarted
  obtain ⟨c, r, w, hconcludes⟩ := hdiscloses.started entry hentry ⟨temporaryTask, 3, hlaunch⟩
  have hprinted := hdiscloses.shown c r w hconcludes (fun _ _ => rfl) (Or.inl rfl)
  exact ⟨hgiven, hdiscloses, hstatus, c, r, w, hconcludes, hprinted⟩

/-- Nothing is printed if the artifact of a failed compilation is to be copied. -/
theorem report_withheld :
  let arguments := ["--json", "--latex", "a.tex", "-o", "out.pdf"]
  let given : Given := [(.json, "true"), (.latex, "a.tex"), (.output, "out.pdf")]
  let answer := Machine.answer { programs := failing }
  let job := runProgram arguments fun _ => none
  Given.ofArguments arguments (fun _ => none) = .ok given
    ∧ (Settings.ofGiven given).json = true
    ∧ (∃ entry ∈ job.transcript answer desk, entry.1.StartsCompiler)
    ∧ ∀ r, Job.picked answer Action.printed? job desk ≠ [structured r]
  := by
  intro arguments given answer job
  have hgiven : Given.ofArguments arguments (fun _ => none) = .ok given := by decide +kernel
  have hjson : (Settings.ofGiven given).json = true := by decide +kernel
  have hstarted : ∃ entry ∈ job.transcript answer desk,
      entry.1 = .launch (temporaryTask.invocation 3) := by decide +kernel
  have hnothing : Job.picked answer Action.printed? job desk = [] := by decide +kernel
  obtain ⟨entry, hentry, hlaunch⟩ := hstarted
  refine ⟨hgiven, hjson, ⟨entry, hentry, temporaryTask, 3, hlaunch⟩, fun r => ?_⟩
  rw [hnothing]
  exact (List.cons_ne_nil _ _).symm

end CommandLine

end Bindery
