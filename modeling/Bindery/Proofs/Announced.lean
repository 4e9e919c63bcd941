import Bindery.Proofs.Course
import Bindery.Proofs.Transcript

/-!
# What a job announces

`Job.announced` lists the events that a job announces while it is carried out, whatever machine
answers its questions; a `Machine` puts them on record (`events_run`).  `Tells P job` says that the
events and the value satisfy `P` whatever the answers are.  It passes through `bind`
(`Tells.bind`), and a job that asks for no announcement is `Silent`.
-/

namespace Bindery

/-- The event that an action announces. -/
def Action.event? : Action → Option Event
  | announce event => some event
  | _ => none

namespace Job

variable {σ α β : Type} (answer : σ → (action : Action) → action.Answer × σ)

/-- The events that a job announces, one after another. -/
def announced (job : Job α) (x : σ) : List Event :=
  (job.transcript answer x).filterMap fun entry => entry.1.event?

@[simp]
theorem announced_done (a : α) (x : σ) :
  announced answer (.done a) x = []
  := rfl

/-- A sequence announces what its parts announce. -/
theorem announced_bind (job : Job α) (f : α → Job β) (x : σ) :
  announced answer (job.bind f) x = announced answer job x
    ++ announced answer (f (job.run answer x).1) (job.run answer x).2
  := by rw [announced, Dialogue.transcript_bind, List.filterMap_append, announced, announced]

theorem announced_ask (action : Action) (next : action.Answer → Job α) (x : σ) :
  announced answer (.ask action next) x = action.event?.toList
    ++ announced answer (next (answer x action).1) (answer x action).2
  := by
  rw [announced, Dialogue.transcript, List.filterMap_cons]
  dsimp only
  cases action.event? <;> rfl

/-! ### Whatever the answers -/

/-- The events that the job announces and its value satisfy `P`, whatever the answers. -/
def Tells (P : List Event → α → Prop) : Job α → Prop
  | .done a => P [] a
  | .ask action next => ∀ r, Tells (fun events => P (action.event?.toList ++ events)) (next r)

theorem tells_done {P : List Event → α → Prop} {a : α} :
  Tells P (.done a) ↔ P [] a
  := Iff.rfl

/-- The job announces nothing. -/
abbrev Silent (job : Job α) : Prop :=
  job.Only fun action => action.event? = none

variable {P R : List Event → α → Prop} {answer}

theorem Tells.mono {job : Job α} (h : Tells P job) (hPR : ∀ events a, P events a → R events a) :
  Tells R job
  := by
  induction job generalizing P R with
  | done a => exact hPR [] a h
  | ask action next ih => exact fun r => ih r (h r) fun events => hPR _

/-- What is announced first and the value that this leads to decide what is to be announced
then. -/
theorem Tells.bind {R : List Event → β → Prop} {job : Job α} {f : α → Job β} (h : Tells P job)
    (hf : ∀ events a, P events a → Tells (fun more => R (events ++ more)) (f a)) :
  Tells R (job.bind f)
  := by
  induction job generalizing P R with
  | done a => exact hf [] a h
  | ask action next ih =>
    intro r
    apply ih r (h r)
    intro events a hP
    apply (hf _ a hP).mono
    intro more b hR
    rw [← List.append_assoc]
    exact hR

/-- A job that announces nothing tells its value. -/
theorem tells_of_silent {Q : α → Prop} {job : Job α} (h : Silent job) (hQ : job.Always Q) :
  Tells (fun events a => events = [] ∧ Q a) job
  := by
  induction job with
  | done a => exact ⟨rfl, hQ⟩
  | ask action next ih =>
    intro r
    apply (ih r (h.2 r) (hQ r)).mono
    rintro events a ⟨rfl, ha⟩
    rw [h.1]
    exact ⟨rfl, ha⟩

/-- Before a job, one that announces nothing can be left out. -/
theorem Tells.after_silent {R : List Event → β → Prop} {Q : α → Prop} {job : Job α}
    {f : α → Job β} (h : Silent job) (hQ : job.Always Q) (hf : ∀ a, Q a → Tells R (f a)) :
  Tells R (job.bind f)
  := by
  apply (tells_of_silent h hQ).bind
  rintro _ a ⟨rfl, ha⟩
  exact hf a ha

/-- What holds whatever the answers are holds of those that a machine gives. -/
theorem Tells.run {job : Job α} (h : Tells P job)
    (answer : σ → (action : Action) → action.Answer × σ) (x : σ) :
  P (announced answer job x) (job.run answer x).1
  := by
  induction job generalizing P x with
  | done a => exact h
  | ask action next ih =>
    rw [announced_ask]
    exact ih _ (h _) _

theorem announced_of_silent {job : Job α} (h : Silent job) (x : σ) :
  announced answer job x = []
  := (tells_of_silent h (Dialogue.always_of_forall (fun _ => trivial) job)).run answer x |>.1

end Job

namespace Machine

variable {α : Type}

/-- A machine puts what is announced on record. -/
theorem events_answer (s : Surroundings) (m : Machine) (action : Action) :
  (answer s m action).2.events = action.event?.toList ++ m.events
  := by
  have hchanged (result : Except OsError Tree) : (m.changed result).2.events = m.events := by
    cases result <;> rfl
  cases action with
  | write path bytes => exact hchanged (m.tree.write m.cwd path bytes)
  | remove path => exact hchanged (m.tree.remove m.cwd path)
  | copy source target => exact hchanged (m.tree.copy m.cwd source target)
  | rename source target => exact hchanged (m.tree.rename m.cwd source target)
  | removeAll path => exact hchanged (m.tree.removeAll m.cwd path)
  | openEnd path =>
    rw [answer_openEnd]
    split <;> rfl
  | makeTemporary =>
    delta answer
    dsimp only
    generalize m.tree.makeDir m.cwd (temporaryDir s) = made
    cases made <;> rfl
  | makeDirs | stat | read | append | launch | consult | announce | print | complain => rfl

/-- The events on record after a job are those that it announced, the latest first, and those that
were on record before. -/
theorem events_run (s : Surroundings) (job : Job α) (m : Machine) :
  (run s job m).2.events = (Job.announced (answer s) job m).reverse ++ m.events
  := by
  induction job generalizing m with
  | done a => rfl
  | ask action next ih =>
    have hrest := ih (answer s m action).1 (answer s m action).2
    rw [events_answer] at hrest
    rw [Job.announced_ask, List.reverse_append, List.append_assoc]
    apply hrest.trans
    cases action.event? <;> rfl

end Machine

end Bindery
