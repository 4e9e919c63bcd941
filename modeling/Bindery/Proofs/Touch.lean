import Bindery.Action
import Bindery.Proofs.Transcript

/-!
# Files that a job touches

A job touches a file when it writes it, removes it, or opens it to write at its end
(`Action.touches`).  `Job.touches` lists what a job touches while it is carried out, whatever
machine answers its questions, and a job of actions that touch nothing touches nothing
(`touches_eq_nil`).  A job is `Tidy` if it writes at the end of a file only just after it has opened
that file; so whatever it adds goes to a file that it touches (`Tidy.exists_opening`).  Besides, it
makes directories only where it may.
-/

namespace Bindery

/-- What becomes of a file that is touched. -/
inductive Treatment where
  /-- Its old contents are lost. -/
  | written
  | removed
  /-- It may grow. -/
  | opened
deriving DecidableEq, Repr

/-- A file that is touched. -/
structure Touch where
  how : Treatment
  path : Path
deriving DecidableEq, Repr

namespace Action

/-- The files that an action touches by name.  What is written at the end of an open file goes to
a file that was opened for it. -/
def touches : Action → List Touch
  | write path _ => [⟨.written, path⟩]
  | remove path => [⟨.removed, path⟩]
  | openEnd path => [⟨.opened, path⟩]
  | copy _ target => [⟨.written, target⟩]
  | rename source target => [⟨.removed, source⟩, ⟨.written, target⟩]
  | removeAll path => [⟨.removed, path⟩]
  | _ => []

/-- The action itself changes no file. -/
def IsQuiet : Action → Prop
  | stat _ | read _ | launch _ | consult _ | announce _ | print _ | complain _ => True
  | _ => False

/-- The action changes no file but those that it touches, adds nothing to open files, and makes
directories only at paths that satisfy `R`. -/
def IsPlain (R : Path → Prop) : Action → Prop
  | makeDirs path => R path
  | append _ _ | copy _ _ | rename _ _ | makeTemporary | removeAll _ => False
  | _ => True

theorem IsQuiet.isPlain {R : Path → Prop} {action : Action} (h : action.IsQuiet) :
  action.IsPlain R
  := by
  cases action with
  | stat | read | launch | consult | announce | print | complain => trivial
  | _ => cases h

theorem IsQuiet.touches_eq {action : Action} (h : action.IsQuiet) :
  action.touches = []
  := by
  cases action with
  | stat | read | launch | consult | announce | print | complain => rfl
  | _ => cases h

end Action

namespace Job

variable {σ α β : Type} (answer : σ → (action : Action) → action.Answer × σ)

/-- The files that a job touches, one after another. -/
def touches (job : Job α) (x : σ) : List Touch :=
  (job.transcript answer x).flatMap fun entry => entry.1.touches

@[simp]
theorem touches_done (a : α) (x : σ) :
  touches answer (.done a) x = []
  := rfl

@[simp]
theorem touches_act (action : Action) (x : σ) :
  touches answer (act action) x = action.touches
  := List.append_nil _

theorem touches_ask (action : Action) (next : action.Answer → Job α) (x : σ) :
  touches answer (.ask action next) x
    = action.touches ++ touches answer (next (answer x action).1) (answer x action).2
  := rfl

/-- A sequence touches what its parts touch. -/
@[simp]
theorem touches_bind (job : Job α) (f : α → Job β) (x : σ) :
  touches answer (job.bind f) x
    = touches answer job x ++ touches answer (f (job.run answer x).1) (job.run answer x).2
  := by
  rw [touches, Dialogue.transcript_bind, List.flatMap_append]
  rfl

theorem touches_eq_nil {job : Job α} (h : job.Only fun action => action.touches = []) (x : σ) :
  touches answer job x = []
  := by
  apply List.flatMap_eq_nil_iff.mpr
  exact h.transcript answer x

theorem touches_of_quiet {job : Job α} (h : job.Only Action.IsQuiet) (x : σ) :
  touches answer job x = []
  := touches_eq_nil answer (h.mono fun _ => Action.IsQuiet.touches_eq) x

/-! ### Adding to files -/

/-- All actions of the job are plain, but for what is written at the end of a file that was opened
just before; and directories are made only at paths that satisfy `R`. -/
inductive Tidy (R : Path → Prop) : Job α → Prop where
  | done (a : α) : Tidy R (.done a)
  | ask {action : Action} {next : action.Answer → Job α} (plain : action.IsPlain R)
      (rest : ∀ answer, Tidy R (next answer)) : Tidy R (.ask action next)
  | extend {path : Path} {next : Except OsError Handle → Job α} (bytes : Handle → Bytes)
      (more : Handle → Except OsError Unit → Job α)
      (refused : ∀ cause, Tidy R (next (.error cause)))
      (opened : ∀ handle, next (.ok handle) = .ask (.append handle (bytes handle)) (more handle))
      (rest : ∀ handle answer, Tidy R (more handle answer)) : Tidy R (.ask (.openEnd path) next)

variable {R : Path → Prop}

theorem tidy_of_plain {job : Job α} (h : job.Only (Action.IsPlain R)) :
  Tidy R job
  := by
  induction job with
  | done a => exact .done a
  | ask action next ih => exact .ask h.1 fun answer => ih answer (h.2 answer)

theorem tidy_act (action : Action) (h : action.IsPlain R) :
  Tidy R (act action)
  := tidy_of_plain (Dialogue.only_question h)

theorem tidy_of_quiet {job : Job α} (h : job.Only Action.IsQuiet) :
  Tidy R job
  := tidy_of_plain (h.mono fun _ => Action.IsQuiet.isPlain)

theorem Tidy.bind {job : Job α} {f : α → Job β} (h : Tidy R job) (hf : ∀ a, Tidy R (f a)) :
  Tidy R (job.bind f)
  := by
  induction h with
  | done a => exact hf a
  | ask plain rest ih => exact .ask plain ih
  | @extend _ _ bytes more refused opened rest ih ih' =>
    refine .extend bytes (fun handle r => (more handle r).bind f) ih ?_ ih'
    intro handle
    rw [opened]
    rfl

/-- What a tidy job adds to a file goes to a file that it has opened. -/
theorem Tidy.exists_opening {job : Job α} (h : Tidy R job) (x : σ) {handle : Handle}
    {bytes : Bytes} {r : Except OsError Unit}
    (hmem : ⟨.append handle bytes, r⟩ ∈ job.transcript answer x) :
  ∃ path, ⟨.openEnd path, .ok handle⟩ ∈ job.transcript answer x
  := by
  induction h generalizing x with
  | done a => cases hmem
  | @ask action next plain rest ih =>
    rw [Dialogue.transcript, List.mem_cons] at hmem
    rcases hmem with hfirst | hmem
    · cases hfirst
      cases plain
    · obtain ⟨path, hpath⟩ := ih _ _ hmem
      exact ⟨path, List.mem_cons_of_mem _ hpath⟩
  | @extend path next _ more refused opened rest ih ih' =>
    rw [Dialogue.transcript, List.mem_cons] at hmem
    rcases hmem with hfirst | hmem
    · cases hfirst
    · rw [Dialogue.transcript]
      generalize answer x (.openEnd path) = found at hmem ⊢
      obtain ⟨result, x'⟩ := found
      cases result with
      | error cause =>
        obtain ⟨path', hpath⟩ := ih cause x' hmem
        exact ⟨path', List.mem_cons_of_mem _ hpath⟩
      | ok found =>
        dsimp only at hmem ⊢
        rw [opened, Dialogue.transcript, List.mem_cons] at hmem
        rw [opened, Dialogue.transcript]
        rcases hmem with hfirst | hmem
        · cases hfirst
          exact ⟨path, List.mem_cons_self⟩
        · obtain ⟨path', hpath⟩ := ih' found _ _ hmem
          exact ⟨path', List.mem_cons_of_mem _ (List.mem_cons_of_mem _ hpath)⟩

end Job

end Bindery
