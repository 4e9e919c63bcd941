import Bindery.CommandLine.Run
import Bindery.Proofs.Request.Delivery
import Bindery.Proofs.Request.Homely

/-!
# The request of a run

A request only works on files and starts programs (`only_work_process`), and showing its events adds
nothing but the line with the verdict (`only_showProgress`).  Where nothing is announced any more,
nothing more is to be shown (`showProgress_bind`).  A job `Falters` if something that it prints
cannot be printed, and it is `Sensitive` if it panics exactly then.
-/

namespace Bindery

open Dialogue (Only only_done only_question)

namespace Action

/-- The action is work on a request: it prints nothing, and makes or removes no directory with
everything in it. -/
def IsWork : Action → Prop
  | print _ | complain _ | makeTemporary | removeAll _ => False
  | _ => True

/-- The action prints something. -/
def IsTelling : Action → Prop
  | print _ | complain _ => True
  | _ => False

/-- The action was to print something, which did not succeed. -/
def IsUntold : (action : Action) → action.Answer → Prop
  | print _, printed => printed = false
  | complain _, printed => printed = false
  | _, _ => False

theorem IsWork.not_isTelling {action : Action} (h : action.IsWork) :
  ¬ action.IsTelling
  := by
  cases action with
  | print | complain => cases h
  | _ => exact not_false

theorem not_isUntold {action : Action} (h : ¬ action.IsTelling) (r : action.Answer) :
  ¬ action.IsUntold r
  := by
  cases action with
  | print | complain => exact absurd trivial h
  | _ => exact not_false

end Action

/-! ### Jobs that can end with an error -/

namespace Dialogue

variable {Q R : Type} {A : Q → Type} {B : R → Type} {α β γ σ ε : Type}
  {f : σ → (q : Q) → Dialogue R B (Except ε (A q × σ))}

theorem andThen_assoc (x : Dialogue Q A (Except ε α)) (f : α → Dialogue Q A (Except ε β))
    (g : β → Dialogue Q A (Except ε γ)) :
  (x.andThen f).andThen g = x.andThen fun a => (f a).andThen g
  := by
  rw [andThen, andThen, bind_assoc]
  apply congrArg (bind x)
  funext result
  cases result <;> rfl

section Running

variable {answer : σ → (q : Q) → A q × σ} {x : Dialogue Q A (Except ε α)}
  {f : α → Dialogue Q A (Except ε β)} {s : σ}

theorem run_andThen_of_ok {a : α} (h : (x.run answer s).1 = .ok a) :
  (x.andThen f).run answer s = (f a).run answer (x.run answer s).2
  := by rw [andThen, run_bind, h]

theorem run_andThen_of_error {e : ε} (h : (x.run answer s).1 = .error e) :
  (x.andThen f).run answer s = (.error e, (x.run answer s).2)
  := by
  rw [andThen, run_bind, h]
  rfl

theorem transcript_andThen_of_ok {a : α} (h : (x.run answer s).1 = .ok a) :
  (x.andThen f).transcript answer s
    = x.transcript answer s ++ (f a).transcript answer (x.run answer s).2
  := by rw [andThen, transcript_bind, h]

theorem transcript_andThen_of_error {e : ε} (h : (x.run answer s).1 = .error e) :
  (x.andThen f).transcript answer s = x.transcript answer s
  := by rw [andThen, transcript_bind, h, transcript_done, List.append_nil]

end Running

theorem Only.andThen {P : Q → Prop} {x : Dialogue Q A (Except ε α)}
    {f : α → Dialogue Q A (Except ε β)} (hx : x.Only P) (hf : ∀ a, (f a).Only P) :
  (x.andThen f).Only P
  := by
  refine hx.bind ?_
  rintro (e | a)
  · trivial
  · exact hf a

theorem always_andThen {P : Except ε β → Prop} {x : Dialogue Q A (Except ε α)}
    {f : α → Dialogue Q A (Except ε β)} (hx : x.Always fun result => ∀ e, result = .error e →
      P (.error e)) (hf : ∀ a, (f a).Always P) :
  (x.andThen f).Always P
  := by
  apply always_bind.mpr
  apply hx.mono
  rintro (e | a) he
  · exact he e rfl
  · exact hf a

theorem observe_bind (x : Dialogue Q A α) (g : α → Dialogue Q A β) (s : σ) :
  (x.bind g).observe f s = (x.observe f s).andThen fun (a, s) => (g a).observe f s
  := by
  induction x generalizing s with
  | done a => rfl
  | ask q next ih => simp only [bind, observe, ih, andThen_assoc]

theorem Only.observe {P : Q → Prop} {P' : R → Prop} (hf : ∀ s q, P q → (f s q).Only P')
    {x : Dialogue Q A α} (h : x.Only P) (s : σ) :
  (x.observe f s).Only P'
  := by
  induction x generalizing s with
  | done a => trivial
  | ask q next ih => exact (hf s q h.1).andThen fun a => ih a.1 (h.2 a.1) a.2

theorem Always.observe {P : α → Prop} {x : Dialogue Q A α} (h : x.Always P) (s : σ) :
  (x.observe f s).Always fun result => ∀ a, result = .ok a → P a.1
  := by
  induction x generalizing s with
  | done a =>
    rintro _ ⟨⟩
    exact h
  | ask q next ih =>
    apply always_bind.mpr
    apply always_of_forall
    rintro (e | ⟨a, s⟩)
    · rintro _ ⟨⟩
    · exact ih a (h a) s

end Dialogue

/-! ### What cannot be printed -/

namespace Job

variable {σ α β : Type} (answer : σ → (action : Action) → action.Answer × σ)

/-- Something that the job prints cannot be printed. -/
def Falters (job : Job α) (x : σ) : Prop :=
  ∃ entry ∈ job.transcript answer x, entry.1.IsUntold entry.2

/-- The job panics exactly if something cannot be printed. -/
def Sensitive (job : Job (Except Halt α)) (x : σ) : Prop :=
  (job.run answer x).1 = .error .panicked ↔ Falters answer job x

variable {answer}

theorem not_falters_done (a : α) (x : σ) :
  ¬ Falters answer (.done a) x
  := by
  rintro ⟨entry, ⟨⟩, -⟩

theorem falters_bind {job : Job α} {f : α → Job β} {x : σ} :
  Falters answer (job.bind f) x
    ↔ Falters answer job x ∨ Falters answer (f (job.run answer x).1) (job.run answer x).2
  := by simp only [Falters, Dialogue.transcript_bind, List.mem_append, or_and_right, exists_or]

theorem falters_ask {action : Action} {next : action.Answer → Job α} {x : σ} :
  Falters answer (.ask action next) x
    ↔ action.IsUntold (answer x action).1
      ∨ Falters answer (next (answer x action).1) (answer x action).2
  := by simp only [Falters, Dialogue.transcript, List.exists_mem_cons_iff]

theorem not_falters_of_only {job : Job α} (h : job.Only fun action => ¬ action.IsTelling)
    (x : σ) :
  ¬ Falters answer job x
  := by
  rintro ⟨entry, hentry, huntold⟩
  exact Action.not_isUntold (h.transcript answer x entry hentry) _ huntold

theorem sensitive_done {result : Except Halt α} (h : result ≠ .error .panicked) (x : σ) :
  Sensitive answer (.done result) x
  := iff_of_false h (not_falters_done _ x)

theorem sensitive_ok (a : α) (x : σ) :
  Sensitive answer (.done (.ok a)) x
  := sensitive_done (by rintro ⟨⟩) x

theorem sensitive_failed (failure : Failure) (x : σ) :
  Sensitive answer (.done (.error (.failed failure)) : Job (Except Halt α)) x
  := sensitive_done (by rintro ⟨⟩) x

/-- A job that prints nothing is followed by what is to be sensitive. -/
theorem sensitive_bind {job : Job α} {f : α → Job (Except Halt β)}
    (h : job.Only fun action => ¬ action.IsTelling) {x : σ}
    (hf : Sensitive answer (f (job.run answer x).1) (job.run answer x).2) :
  Sensitive answer (job.bind f) x
  := by
  rw [Sensitive, Dialogue.run_bind, falters_bind, or_iff_right (not_falters_of_only h x)]
  exact hf

theorem sensitive_ask {action : Action} {next : action.Answer → Job (Except Halt α)}
    (h : ¬ action.IsTelling) {x : σ}
    (hnext : Sensitive answer (next (answer x action).1) (answer x action).2) :
  Sensitive answer (.ask action next) x
  := sensitive_bind (f := next) (only_question h) hnext

theorem Sensitive.andThen {job : Job (Except Halt α)} {f : α → Job (Except Halt β)} {x : σ}
    (h : Sensitive answer job x)
    (hf : ∀ a, Sensitive answer (f a) (job.run answer x).2) :
  Sensitive answer (job.andThen f) x
  := by
  have hpanicked : (job.run answer x).1 = .error .panicked ↔ Falters answer job x := h
  rw [Sensitive, Dialogue.andThen, Dialogue.run_bind, falters_bind, ← hpanicked]
  rcases (job.run answer x).1 with (failure | _) | a
  · exact iff_of_false nofun (by simpa using not_falters_done _ _)
  · exact iff_of_true rfl (Or.inl rfl)
  · rw [or_iff_right nofun]
    exact hf a

theorem told_eq_panicked_iff {printed : Bool} :
  told printed = .error .panicked ↔ printed = false
  := by cases printed <;> simp [told]

theorem printLine_eq (line : String) :
  printLine line = .ask (.print (line ++ "\n")) fun printed => .done (told printed)
  := rfl

theorem complainLine_eq (line : String) :
  complainLine line = .ask (.complain (line ++ "\n")) fun printed => .done (told printed)
  := rfl

/-- What is only told succeeds, or it panics. -/
def IsTold (result : Except Halt Unit) : Prop :=
  result = .ok () ∨ result = .error .panicked

theorem isTold_told (printed : Bool) :
  IsTold (told printed)
  := by
  cases printed
  · exact Or.inr rfl
  · exact Or.inl rfl

theorem isTold_complainLine (line : String) :
  (complainLine line).Always IsTold
  := isTold_told

theorem isTold_complainLines (lines : List String) :
  (complainLines lines).Always IsTold
  := by
  induction lines with
  | nil => exact Or.inl rfl
  | cons line lines ih =>
    apply Dialogue.always_andThen
    · apply (isTold_complainLine line).mono
      rintro _ (rfl | rfl) e ⟨⟩
      exact Or.inr rfl
    · exact fun _ => ih

theorem sensitive_printLine (line : String) (x : σ) :
  Sensitive answer (printLine line) x
  := by
  rw [Sensitive, printLine_eq, falters_ask, or_iff_left (not_falters_done _ _)]
  exact told_eq_panicked_iff

theorem sensitive_complainLine (line : String) (x : σ) :
  Sensitive answer (complainLine line) x
  := by
  rw [Sensitive, complainLine_eq, falters_ask, or_iff_left (not_falters_done _ _)]
  exact told_eq_panicked_iff

theorem sensitive_complainLines (lines : List String) (x : σ) :
  Sensitive answer (complainLines lines) x
  := by
  induction lines generalizing x with
  | nil => exact sensitive_ok () x
  | cons line lines ih => exact (sensitive_complainLine line x).andThen fun _ => ih _

end Job

/-! ### Progress -/

namespace Progress

/-- The action prints the line that closes a request. -/
def IsVerdict (action : Action) : Prop :=
  ∃ success failed, action = .complain (verdict success failed ++ "\n")

theorem only_watch {P : Action → Prop} (hverdict : ∀ action, IsVerdict action → P action)
    (failed : Nat) {action : Action} (h : P action) :
  (watch failed action).Only P
  := by
  unfold watch
  split
  · trivial
  · refine Only.andThen ⟨hverdict _ ⟨_, _, rfl⟩, fun _ => trivial⟩ fun _ => ?_
    trivial
  · trivial
  · exact ⟨h, fun _ => trivial⟩

theorem sensitive_watch {σ : Type} {answer : σ → (action : Action) → action.Answer × σ}
    (failed : Nat) {action : Action} (h : ¬ action.IsTelling) (x : σ) :
  Job.Sensitive answer (watch failed action) x
  := by
  unfold watch
  split
  · exact Job.sensitive_ok _ x
  · exact (Job.sensitive_complainLine _ x).andThen fun _ => Job.sensitive_ok _ _
  · exact Job.sensitive_ok _ x
  · exact Job.sensitive_ask h (Job.sensitive_ok _ _)

/-- A job that announces nothing is not changed. -/
theorem observe_of_silent {α : Type} {job : Job α} (h : Job.Silent job) (failed : Nat) :
  job.observe watch failed = job.bind fun a => .done (.ok (a, failed))
  := by
  induction job with
  | done a => rfl
  | ask action next ih =>
    have hwatch : watch failed action = .ask action fun answer => .done (.ok (answer, failed)) := by
      cases action with
      | announce event => cases h.1
      | _ => rfl
    rw [Dialogue.observe, hwatch]
    exact congrArg (Dialogue.ask action) (funext fun answer => ih answer (h.2 answer))

end Progress

open Progress (IsVerdict)

section Showing

variable {α β : Type} {shown : Bool} {job : Job α}

theorem only_showProgress (h : job.Only Action.IsWork) :
  (showProgress shown job).Only fun action => action.IsWork ∨ IsVerdict action
  := by
  have hwatch (failed : Nat) (action : Action) (h : action.IsWork) :
      (Progress.watch failed action).Only fun action => action.IsWork ∨ IsVerdict action :=
    Progress.only_watch (fun _ => Or.inr) failed (Or.inl h)
  unfold showProgress
  split
  · exact (h.observe hwatch 0).andThen fun a => only_done _
  · exact (h.mono fun _ => Or.inl).bind fun a => only_done _

theorem showProgress_always {P : α → Prop} (h : job.Always P) :
  (showProgress shown job).Always fun result => ∀ a, result = .ok a → P a
  := by
  unfold showProgress
  split
  · apply Dialogue.always_bind.mpr
    apply (h.observe 0).mono
    rintro (e | a) ha
    · rintro _ ⟨⟩
    · rintro _ ⟨⟩
      exact ha a rfl
  · apply Dialogue.always_bind.mpr
    apply h.mono
    rintro a ha _ ⟨⟩
    exact ha

/-- A job that prints nothing of its own panics only where its events cannot be shown. -/
theorem sensitive_showProgress {σ : Type} {answer : σ → (action : Action) → action.Answer × σ}
    (h : job.Only Action.IsWork) (x : σ) :
  Job.Sensitive answer (showProgress shown job) x
  := by
  have hquiet := h.mono fun _ => Action.IsWork.not_isTelling
  have hobserve (failed : Nat) : Job.Sensitive answer (job.observe Progress.watch failed) x := by
    clear h
    induction job generalizing failed x with
    | done a => exact Job.sensitive_ok _ x
    | ask action next ih =>
      exact (Progress.sensitive_watch failed hquiet.1 x).andThen fun a =>
        ih a.1 _ (hquiet.2 a.1) a.2
  unfold showProgress
  split
  · exact (hobserve 0).andThen fun _ => Job.sensitive_ok _ _
  · exact Job.sensitive_bind hquiet (Job.sensitive_ok _ _)

/-- After the part of a job that announces events nothing more is to be shown. -/
theorem showProgress_bind {f : α → Job β} (hf : ∀ a, Job.Silent (f a)) :
  showProgress shown (job.bind f)
    = (showProgress shown job).andThen fun a => (f a).bind fun b => .done (.ok b)
  := by
  unfold showProgress
  split
  · rw [Dialogue.observe_bind, Dialogue.andThen_assoc, Dialogue.andThen_assoc]
    apply congrArg (Dialogue.andThen _)
    funext ⟨a, failed⟩
    change ((f a).observe Progress.watch failed).andThen _ = (f a).bind _
    rw [Progress.observe_of_silent (hf a), Dialogue.andThen, Dialogue.bind_assoc]
    rfl
  · change (job.bind f).bind _ = (job.bind _).bind _
    rw [Dialogue.bind_assoc, Dialogue.bind_assoc]
    rfl

end Showing

/-! ### The work on a request -/

/-- What a job does that stays at home is work, if the rest of what it may do is. -/
theorem Job.Homely.only_work {α : Type} {P : Action → Prop} {w log : Path} {job : Job α}
    (hP : ∀ action, P action → action.IsWork) (h : Homely P w log job) :
  job.Only Action.IsWork
  := by
  induction h with
  | done a => trivial
  | ask homely rest ih =>
    refine ⟨?_, ih⟩
    rcases homely with homely | allowed
    · rename_i action _
      cases action with
      | stat | read | write | remove | announce => trivial
      | _ => cases homely
    · exact hP _ allowed
  | start invocation more inside refused opened rest ih ih'
  | extend bytes more refused opened rest ih ih' =>
    refine ⟨trivial, ?_⟩
    rintro (cause | handle)
    · exact ih cause
    · rw [opened]
      exact ⟨trivial, ih'⟩

namespace Request

variable {c : Config}

theorem only_work_process (hc : c.Fits) (id : String) (directory : Path)
    (sources : List SourceFile) :
  (process (.looking id directory c) c sources).Only Action.IsWork
  := by
  have hlook (name : String) :
      ((Context.looking id directory c).isAvailable name).Only Action.IsWork :=
    only_isAvailable (c := c.lookup) trivial
  obtain ⟨next, hprocess, hrefused, hhomely⟩ := homely_process hc hlook sources
  rw [hprocess]
  refine ⟨trivial, ?_⟩
  rintro (cause | _)
  · rw [hrefused]
    trivial
  · exact hhomely.only_work fun _ h => h

/-- Copying an artifact makes directories, copies and renames. -/
theorem only_deliverResult {P : Action → Prop} (hdirs : ∀ path, P (.makeDirs path))
    (hcopy : ∀ source target, P (.copy source target))
    (hrename : ∀ source target, P (.rename source target)) (c : Config) (output : Path)
    (result : Except RequestError Report) :
  (deliverResult c output result).Only P
  := by
  have hparent : (makeParent output).Only P := by
    rcases makeParent_cases output with hnone | ⟨parent, -, hmake⟩
    · rw [hnone]
      trivial
    · rw [hmake]
      exact only_question (hdirs parent)
  have hdeliver (artifact : Path) : (deliver c.compiler artifact output).Only P := by
    rw [deliver_eq]
    refine hparent.bind ?_
    rintro (e | _)
    · trivial
    · refine ⟨hcopy _ _, ?_⟩
      rintro (e | _)
      · trivial
      · exact only_question (hrename _ _)
  cases result with
  | error e => trivial
  | ok report =>
    unfold deliverResult
    dsimp only
    cases report.result with
    | error e => trivial
    | ok artifact =>
      refine (hdeliver artifact).bind ?_
      rintro (cause | _) <;> trivial

end Request

end Bindery
