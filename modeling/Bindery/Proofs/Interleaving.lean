import Bindery.Proofs.Frame

/-!
# Jobs that take turns

`step` takes the next action of a job, and `stepped` some of them one after another, which comes to
the same as carrying the job out if they are enough (`stepped_of_length_le`).  Two jobs that run at
the same time take `turns` on one machine, in any order (`together`).  What their steps keep when
each is compared with steps of the same job alone, they keep together (`together_induct`).  `moves`
lists the actions of a job with the trees before and after each.
-/

namespace Bindery

/-- The value of a dialogue that has ended. -/
def Dialogue.value? {Q : Type} {A : Q → Type} {α : Type} : Dialogue Q A α → Option α
  | done a => some a
  | ask .. => none

namespace Machine

variable {α β : Type} (s : Surroundings)

/-- Takes the next action of a job, if there is one. -/
def step : Job α → Machine → Job α × Machine
  | .done a, m => (.done a, m)
  | .ask action next, m => (next (answer s m action).1, (answer s m action).2)

/-- Takes some actions of a job, one after another. -/
def stepped : Nat → Job α × Machine → Job α × Machine
  | 0, x => x
  | n + 1, x => stepped n (step s x.1 x.2)

/-- Two jobs take turns; the first one where the list says so. -/
def together : List Bool → Job α → Job β → Machine → Job α × Job β × Machine
  | [], x, y, m => (x, y, m)
  | true :: turns, x, y, m => together turns (step s x m).1 y (step s x m).2
  | false :: turns, x, y, m => together turns x (step s y m).1 (step s y m).2

/-- The actions of a job, each with the tree before and after it. -/
def moves : Job α → Machine → List (Action × Tree × Tree)
  | .done _, _ => []
  | .ask action next, m =>
    (action, m.tree, (answer s m action).2.tree)
      :: moves (next (answer s m action).1) (answer s m action).2

variable {s}

theorem stepped_done (n : Nat) (a : α) (m : Machine) :
  stepped s n (.done a, m) = (.done a, m)
  := by
  induction n with
  | zero => rfl
  | succ n ih => exact ih

/-- A job that takes as many actions as it has is carried out. -/
theorem stepped_of_length_le (job : Job α) {n : Nat} (m : Machine)
    (hn : (job.transcript (answer s) m).length ≤ n) :
  stepped s n (job, m) = (.done (run s job m).1, (run s job m).2)
  := by
  induction job generalizing n m with
  | done a => exact stepped_done n a m
  | ask action next ih =>
    cases n with
    | zero => cases hn
    | succ n =>
      rw [Dialogue.transcript, List.length_cons, Nat.succ_le_succ_iff] at hn
      exact ih (answer s m action).1 (answer s m action).2 hn

/-- If a relation between two jobs and those jobs alone is kept by the steps of either of them, then
it holds after any turns. -/
theorem together_induct
    {R : Job α × Job β × Machine → Job α × Machine → Job β × Machine → Prop}
    (first : ∀ {x y m u v}, R (x, y, m) u v →
      R ((step s x m).1, y, (step s x m).2) (step s u.1 u.2) v)
    (second : ∀ {x y m u v}, R (x, y, m) u v →
      R (x, (step s y m).1, (step s y m).2) u (step s v.1 v.2))
    (turns : List Bool) {x : Job α} {y : Job β} {m : Machine} {u : Job α × Machine}
    {v : Job β × Machine} (h : R (x, y, m) u v) :
  R (together s turns x y m) (stepped s (turns.count true) u) (stepped s (turns.count false) v)
  := by
  induction turns generalizing x y m u v with
  | nil => exact h
  | cons turn turns ih =>
    cases turn with
    | true =>
      rw [List.count_cons_self, List.count_cons_of_ne (by decide)]
      exact ih (first h)
    | false =>
      rw [List.count_cons_self, List.count_cons_of_ne (by decide)]
      exact ih (second h)

theorem cwd_step (job : Job α) (m : Machine) :
  (step s job m).2.cwd = m.cwd
  := by
  cases job with
  | done a => rfl
  | ask action next => exact cwd_answer s m action

end Machine

end Bindery
